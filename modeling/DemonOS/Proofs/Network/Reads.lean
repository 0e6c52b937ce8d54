import DemonOS.Network.Receive

/-!
# A packet is read within its bytes

`packet.Has m n` says that the first `n` bytes of a packet are those of the memory `m`. Every
function that takes a packet apart has a result on a packet that has the bytes it is said to have
(`receiveFrame_cases`): it reads none behind them, none of its differences or sums leaves 64 bits,
and the rounds it is given end its loops. What it has found is settled before the state is touched,
but for a TCP segment, which the state itself may refuse.
-/

namespace DemonOS

namespace Network

def Packet.Has (packet : Packet) (m : ℕ → UInt8) (n : ℕ) : Prop :=
  ∀ i, i < n → packet i = some (m i)

def be16 (m : ℕ → UInt8) (i : ℕ) : UInt16 :=
  UInt16.ofNat ((m i).toNat * 2 ^ 8 + (m (i + 1)).toNat)

def be32 (m : ℕ → UInt8) (i : ℕ) : UInt32 :=
  UInt32.ofNat ((be16 m i).toNat * 2 ^ 16 + (be16 m (i + 2)).toNat)

def macAt (m : ℕ → UInt8) (i : ℕ) : Mac :=
  #v[m i, m (i + 1), m (i + 2), m (i + 3), m (i + 4), m (i + 5)]

def behind (m : ℕ → UInt8) (k : ℕ) : ℕ → UInt8 := fun i => m (k + i)

theorem packetOf_has (frame : ℕ → UInt8) (length : ℕ) : (packetOf frame length).Has frame length :=
  fun _ hi => if_pos hi

section

variable {packet : Packet} {m : ℕ → UInt8} {n i : ℕ}

theorem Packet.Has.mono (h : packet.Has m n) {k : ℕ} (hk : k ≤ n) : packet.Has m k :=
  fun i hi => h i (by omega)

theorem Packet.Has.drop (h : packet.Has m n) (k : ℕ) :
    (packet.drop k).Has (behind m k) (n - k) := fun i hi => h (k + i) (by omega)

theorem readBe16_eq (h : packet.Has m n) (hi : i + 2 ≤ n) :
    readBe16 packet i = some (be16 m i) := by
  unfold readBe16
  rw [h i (by omega), h (i + 1) (by omega)]
  rfl

theorem readBe32_eq (h : packet.Has m n) (hi : i + 4 ≤ n) :
    readBe32 packet i = some (be32 m i) := by
  unfold readBe32
  rw [readBe16_eq h (by omega), readBe16_eq h (by omega)]
  rfl

theorem readMac_eq (h : packet.Has m n) (hi : i + 6 ≤ n) : readMac packet i = some (macAt m i) := by
  unfold readMac
  rw [h i (by omega), h (i + 1) (by omega), h (i + 2) (by omega), h (i + 3) (by omega),
    h (i + 4) (by omega), h (i + 5) (by omega)]
  rfl

theorem readBytes_eq (h : packet.Has m n) (k : ℕ) :
    ∀ l : List ℕ, (∀ i ∈ l, k + i < n) →
      (l.mapM fun i => packet (k + i)) = some (l.map fun i => m (k + i))
  | [], _ => rfl
  | i :: l, hl => by
    rw [List.mapM_cons, h (k + i) (hl i (by simp)), readBytes_eq h k l fun j hj => hl j (by simp [hj])]
    rfl

theorem sizeAdd_eq {a b : ℕ} (h : a + b < 2 ^ 64) : sizeAdd a b = some (a + b) := if_pos h

theorem sizeSub_eq {a b : ℕ} (h : b ≤ a) : sizeSub a b = some (a - b) := if_pos h

theorem toNat_be16 (m : ℕ → UInt8) (i : ℕ) :
    (be16 m i).toNat = 256 * (m i).toNat + (m (i + 1)).toNat := by
  have := (m i).toNat_lt
  have := (m (i + 1)).toNat_lt
  unfold be16
  simp
  omega

theorem ipv4ChecksumLoop_eq (h : packet.Has m n) :
    ∀ (words offset sum : ℕ), offset + 2 * words ≤ n → sum ≤ 0xFFFF →
      ipv4ChecksumLoop packet words offset sum
        = some (OnesComplement.fold (sum + OnesComplement.wordSum m offset (2 * words)))
  | 0, _, sum, _, hsum => by
    rw [ipv4ChecksumLoop, OnesComplement.wordSum, Nat.add_zero, OnesComplement.fold_of_le hsum]
  | words + 1, offset, sum, hoffset, hsum => by
    rw [ipv4ChecksumLoop, readBe16_eq h (by omega)]
    refine (ipv4ChecksumLoop_eq h words _ _ (by omega) (OnesComplement.fold_le _)).trans ?_
    rw [OnesComplement.fold_add_fold, toNat_be16, show 2 * (words + 1) = 2 * words + 2 by ring,
      OnesComplement.wordSum]
    simp only [Nat.add_assoc]

theorem networkIpv4Checksum_eq (h : packet.Has m n) (hn : n ≤ 60) (hlow : 20 ≤ n)
    (heven : n % 2 = 0) : networkIpv4Checksum packet n
      = some (complement (OnesComplement.fold (OnesComplement.wordSum m 0 n))) := by
  unfold networkIpv4Checksum
  rw [if_neg (by omega), ipv4ChecksumLoop_eq h _ _ _ (by omega) (by omega)]
  rw [show 2 * (n / 2) = n by omega, Nat.zero_add]
  rfl

theorem checksumAdd_eq (h : packet.Has m n) :
    ∀ (length offset sum : ℕ), offset + length ≤ n → sum < 2 ^ 32 →
      checksumAdd packet length offset sum
        = some (OnesComplement.fold ((sum + OnesComplement.wordSum m offset length) % 2 ^ 32))
  | 0, _, sum, _, hsum => by
    rw [checksumAdd, OnesComplement.wordSum, Nat.add_zero, Nat.mod_eq_of_lt hsum]
  | 1, offset, sum, hoffset, _ => by
    rw [checksumAdd, h offset (by omega), OnesComplement.wordSum, Nat.mul_comm]
    rfl
  | length + 2, offset, sum, hoffset, _ => by
    rw [checksumAdd, readBe16_eq h (by omega)]
    refine (checksumAdd_eq h length _ _ (by omega) (Nat.mod_lt _ (by decide))).trans ?_
    rw [toNat_be16, OnesComplement.wordSum, Nat.mod_add_mod]
    simp only [Nat.add_assoc]

theorem transportChecksum_eq (h : packet.Has m n) (source destination : UInt32) (protocol : UInt8) :
    transportChecksum source destination protocol packet n
      = some (complement (OnesComplement.fold ((OnesComplement.fold (OnesComplement.wordSum
        (pseudoHeader source destination protocol n) 0 12)
          + OnesComplement.wordSum m 0 n) % 2 ^ 32))) := by
  have hpseudo := packetOf_has (pseudoHeader source destination protocol n) 12
  have hsmall := OnesComplement.wordSum_le (pseudoHeader source destination protocol n) 12 0
  have hfold := OnesComplement.fold_le (OnesComplement.wordSum
    (pseudoHeader source destination protocol n) 0 12)
  have hsum : checksumAdd (packetOf (pseudoHeader source destination protocol n) 12) 12 0 0
      = some (OnesComplement.fold (OnesComplement.wordSum
        (pseudoHeader source destination protocol n) 0 12)) := by
    rw [checksumAdd_eq hpseudo _ _ _ (by omega) (by omega), Nat.zero_add,
      Nat.mod_eq_of_lt (by omega)]
  unfold transportChecksum
  simp only [hsum, Option.bind_eq_bind, Option.bind_some, checksumAdd_eq h n 0 _ (by omega)
    (show OnesComplement.fold (OnesComplement.wordSum
      (pseudoHeader source destination protocol n) 0 12) < 2 ^ 32 by omega)]
  rfl

end

/-- There is a result, and what is refused leaves the state as it was. -/
def Settles (s : Network) (r : Option (Bool × Network)) : Prop :=
  ∃ accepted t, r = some (accepted, t) ∧ (accepted = false → t = s)

theorem settles_refused (s : Network) : Settles s (some (false, s)) := ⟨false, s, rfl, fun _ => rfl⟩

theorem settles_accepted (s t : Network) : Settles s (some (true, t)) := ⟨true, t, rfl, nofun⟩

theorem settles_ite {s : Network} {c : Prop} [Decidable c] {a b : Option (Bool × Network)}
    (ha : c → Settles s a) (hb : ¬c → Settles s b) : Settles s (if c then a else b) := by
  split_ifs with hc
  · exact ha hc
  · exact hb hc

section

variable {s : Network} {packet : Packet} {m : ℕ → UInt8} {n i : ℕ}

theorem receiveArp_settles (h : packet.Has m n) : Settles s (s.receiveArp packet n) := by
  unfold receiveArp arpPacketBytes
  split_ifs with hn
  · exact settles_refused s
  simp only [readBe16_eq h (show 0 + 2 ≤ n by omega), readBe16_eq h (show 2 + 2 ≤ n by omega),
    readBe16_eq h (show 6 + 2 ≤ n by omega), readBe32_eq h (show 14 + 4 ≤ n by omega),
    readMac_eq h (show 8 + 6 ≤ n by omega), h 4 (by omega), h 5 (by omega), Option.bind_eq_bind,
    Option.bind_some]
  split_ifs
  · exact settles_refused s
  · exact settles_refused s
  · exact settles_accepted s _

theorem dhcpOption_isSome (h : packet.Has m n) {length : ℕ} (hlength : i + length ≤ n)
    (option : UInt8) (offer : DhcpOffer) (messageType : UInt8) :
    ∃ r, dhcpOption packet i option length offer messageType = some r := by
  unfold dhcpOption
  split_ifs with h1 h2 h3 h4 h5
  · rw [h i (by omega)]
    exact ⟨_, rfl⟩
  all_goals first
    | rw [readBe32_eq h (by omega)]; exact ⟨_, rfl⟩
    | exact ⟨_, rfl⟩

theorem dhcpOptions_isSome (h : packet.Has m n) (hn : n < 2 ^ 64) :
    ∀ (rounds offset : ℕ) (offer : DhcpOffer) (messageType : UInt8), n - offset < rounds →
      ∃ r, dhcpOptions packet n rounds offset offer messageType = some r
  | 0, _, _, _, hrounds => absurd hrounds (Nat.not_lt_zero _)
  | rounds + 1, offset, offer, messageType, hrounds => by
    rw [dhcpOptions]
    split_ifs with hend
    · exact ⟨_, rfl⟩
    simp only [h offset (by omega), sizeAdd_eq (show offset + 1 < 2 ^ 64 by omega),
      Option.bind_eq_bind, Option.bind_some]
    split_ifs with hpad hstop hlast
    · exact dhcpOptions_isSome h hn rounds _ _ _ (by omega)
    · exact ⟨_, rfl⟩
    · exact ⟨_, rfl⟩
    simp only [h (offset + 1) (by omega), sizeAdd_eq (show offset + 1 + 1 < 2 ^ 64 by omega),
      sizeSub_eq (show offset + 1 + 1 ≤ n by omega), Option.bind_some]
    split_ifs with hlong
    · exact ⟨_, rfl⟩
    obtain ⟨⟨offer', messageType'⟩, hoption⟩ := dhcpOption_isSome h
      (show offset + 1 + 1 + (m (offset + 1)).toNat ≤ n by omega) (m offset) offer messageType
    simp only [hoption, sizeAdd_eq (show offset + 1 + 1 + (m (offset + 1)).toNat < 2 ^ 64 by omega),
      Option.bind_some]
    exact dhcpOptions_isSome h hn rounds _ _ _ (by omega)

theorem receiveDhcp_settles (h : packet.Has m n) (hn : n < 2 ^ 64) :
    Settles s (s.receiveDhcp packet n) := by
  unfold receiveDhcp dhcpFixedBytes
  split_ifs with hshort
  · exact settles_refused s
  obtain ⟨r, hr⟩ := dhcpOptions_isSome h hn (n + 1) 240 { address := be32 m 16 } 0 (by omega)
  simp only [h 0 (by omega), h 1 (by omega), h 2 (by omega),
    readBe32_eq h (show 236 + 4 ≤ n by omega), readMac_eq h (show 28 + 6 ≤ n by omega),
    readBe32_eq h (show 16 + 4 ≤ n by omega), readBe32_eq h (show 4 + 4 ≤ n by omega), hr,
    Option.bind_eq_bind, Option.bind_some]
  split_ifs
  · exact settles_refused s
  rcases r with _ | ⟨offer, messageType⟩
  · exact settles_refused s
  dsimp only
  split_ifs
  · exact settles_refused s
  · exact settles_accepted s _
  · exact settles_accepted s _

theorem dnsSkipName_le (h : packet.Has m n) (hn : n < 2 ^ 64) :
    ∀ rounds offset : ℕ, n - offset < rounds →
      ∃ r, dnsSkipName packet n rounds offset = some r ∧ r ≤ n
  | 0, _, hrounds => absurd hrounds (Nat.not_lt_zero _)
  | rounds + 1, offset, hrounds => by
    rw [dnsSkipName]
    split_ifs with hend
    · exact ⟨_, rfl, Nat.zero_le _⟩
    simp only [h offset (by omega), sizeAdd_eq (show offset + 1 < 2 ^ 64 by omega),
      sizeSub_eq (show offset + 1 ≤ n by omega), Option.bind_eq_bind, Option.bind_some]
    split_ifs with hzero hpointer hlast hlabel
    · exact ⟨_, rfl, by omega⟩
    · exact ⟨_, sizeAdd_eq (by omega), by omega⟩
    · exact ⟨_, rfl, Nat.zero_le _⟩
    · exact ⟨_, rfl, Nat.zero_le _⟩
    rw [sizeAdd_eq (by omega)]
    refine dnsSkipName_le h hn rounds _ ?_
    omega

theorem dnsQuestions_le (h : packet.Has m n) (hn : n < 2 ^ 64) :
    ∀ questions offset : ℕ, offset ≤ n →
      ∃ r, dnsQuestions packet n questions offset = some r ∧ ∀ o ∈ r, o ≤ n
  | 0, offset, hoffset => ⟨_, rfl, by simpa using hoffset⟩
  | questions + 1, offset, _ => by
    obtain ⟨o, ho, hle⟩ := dnsSkipName_le h hn (n + 1) offset (by omega)
    rw [dnsQuestions]
    simp only [ho, sizeSub_eq hle, Option.bind_eq_bind, Option.bind_some]
    split_ifs with hzero hshort
    · exact ⟨_, rfl, by simp⟩
    · exact ⟨_, rfl, by simp⟩
    rw [sizeAdd_eq (by omega)]
    exact dnsQuestions_le h hn questions _ (by omega)

theorem dnsAnswers_settles (h : packet.Has m n) (hn : n < 2 ^ 64) (transaction : UInt16) :
    ∀ answers offset : ℕ, offset ≤ n →
      Settles s (dnsAnswers packet n transaction s answers offset)
  | 0, _, _ => settles_refused s
  | answers + 1, offset, _ => by
    obtain ⟨o, ho, hle⟩ := dnsSkipName_le h hn (n + 1) offset (by omega)
    rw [dnsAnswers]
    simp only [ho, sizeSub_eq hle, Option.bind_eq_bind, Option.bind_some]
    refine settles_ite (fun _ => settles_refused s) fun hzero =>
      settles_ite (fun _ => settles_refused s) fun hshort => ?_
    simp only [readBe16_eq h (show o + 2 ≤ n by omega), readBe16_eq h (show o + 2 + 2 ≤ n by omega),
      readBe32_eq h (show o + 4 + 4 ≤ n by omega), readBe16_eq h (show o + 8 + 2 ≤ n by omega),
      sizeAdd_eq (show o + 10 < 2 ^ 64 by omega), sizeSub_eq (show o + 10 ≤ n by omega),
      Option.bind_some]
    refine settles_ite (fun _ => settles_refused s) fun hlong =>
      settles_ite (fun haddress => ?_) fun _ => ?_
    · have hfour : (be16 m (o + 8)).toNat = 4 := by
        rw [haddress.2.2]
        rfl
      rw [readBe32_eq h (by omega)]
      exact settles_accepted s _
    · rw [sizeAdd_eq (by omega)]
      exact dnsAnswers_settles h hn transaction answers _ (by omega)

theorem receiveDns_settles (h : packet.Has m n) (hn : n < 2 ^ 64) :
    Settles s (s.receiveDns packet n) := by
  unfold receiveDns
  split_ifs with hshort
  · exact settles_refused s
  obtain ⟨r, hr, hle⟩ := dnsQuestions_le h hn (be16 m 4).toNat 12 (by omega)
  simp only [readBe16_eq h (show 0 + 2 ≤ n by omega), readBe16_eq h (show 2 + 2 ≤ n by omega),
    readBe16_eq h (show 4 + 2 ≤ n by omega), readBe16_eq h (show 6 + 2 ≤ n by omega), hr,
    Option.bind_eq_bind, Option.bind_some]
  split_ifs
  · exact settles_refused s
  rcases r with _ | offset
  · exact settles_refused s
  · exact dnsAnswers_settles h hn _ _ _ (hle offset rfl)

theorem receiveUdp_settles (h : packet.Has m n) (hn : n < 2 ^ 64) :
    Settles s (s.receiveUdp packet n) := by
  unfold receiveUdp
  split_ifs with hshort
  · exact settles_refused s
  simp only [readBe16_eq h (show 0 + 2 ≤ n by omega), readBe16_eq h (show 2 + 2 ≤ n by omega),
    readBe16_eq h (show 4 + 2 ≤ n by omega), Option.bind_eq_bind, Option.bind_some]
  split_ifs with hlength
  · exact settles_refused s
  · exact receiveDhcp_settles ((h.drop 8).mono (by omega)) (by omega)
  · exact receiveDns_settles ((h.drop 8).mono (by omega)) (by omega)
  · exact settles_accepted s _

def segmentAt (m : ℕ → UInt8) (n header : ℕ) : TcpSegment where
  sourcePort := be16 m 0
  destinationPort := be16 m 2
  sequence := be32 m 4
  acknowledgment := be32 m 8
  flags := m 13
  window := be16 m 14
  data := (List.range (n - header)).map fun i => m (header + i)

theorem tcpSegment_eq (h : packet.Has m n) (source destination : UInt32) :
    tcpSegment packet n source destination
      = some (if 20 ≤ n ∧ transportChecksum source destination ipProtocolTcp (packetOf m n) n = some 0
          ∧ 20 ≤ (m 12 >>> 4).toNat * 4 ∧ (m 12 >>> 4).toNat * 4 ≤ n
        then some (segmentAt m n ((m 12 >>> 4).toNat * 4)) else none) := by
  unfold tcpSegment
  split_ifs with hshort hgood hgood
  · omega
  · rfl
  · obtain ⟨-, hsum, hlow, hhigh⟩ := hgood
    rw [transportChecksum_eq (packetOf_has m n)] at hsum
    have hdata := readBytes_eq h ((m 12 >>> 4).toNat * 4)
      (List.range (n - (m 12 >>> 4).toNat * 4)) (fun i hi => by
        have := List.mem_range.1 hi
        omega)
    simp only [transportChecksum_eq h, Option.some.inj hsum, h 12 (by omega), h 13 (by omega),
      readBe16_eq h (show 0 + 2 ≤ n by omega), readBe16_eq h (show 2 + 2 ≤ n by omega),
      readBe16_eq h (show 14 + 2 ≤ n by omega), readBe32_eq h (show 4 + 4 ≤ n by omega),
      readBe32_eq h (show 8 + 4 ≤ n by omega), hdata, Option.bind_eq_bind, Option.bind_some]
    rw [if_neg (by simp), if_neg (by omega)]
    rfl
  · have hdata : (20 ≤ (m 12 >>> 4).toNat * 4 ∧ (m 12 >>> 4).toNat * 4 ≤ n) →
        ((List.range (n - (m 12 >>> 4).toNat * 4)).mapM fun i =>
          packet ((m 12 >>> 4).toNat * 4 + i)) = some _ := fun hheader =>
      readBytes_eq h _ _ fun i hi => by
        have := List.mem_range.1 hi
        omega
    rw [transportChecksum_eq (packetOf_has m n)] at hgood
    simp only [transportChecksum_eq h, h 12 (by omega), Option.bind_eq_bind, Option.bind_some]
    split_ifs with hsum hheader
    · rfl
    · rfl
    · simp only [not_not, not_or, not_lt] at hsum hheader
      exact absurd ⟨by omega, by rw [hsum], hheader⟩ hgood

def headerLength (ip : ℕ → UInt8) : ℕ := (ip 0 &&& 0x0F).toNat * 4

def totalLength (ip : ℕ → UInt8) : ℕ := (be16 ip 2).toNat

/-- An IPv4 packet that is handed on: its lengths and checksum are right, and it is no fragment. -/
structure Whole (ip : ℕ → UInt8) (n : ℕ) : Prop where
  length : 20 ≤ n
  version : ip 0 >>> 4 = 4
  header : 20 ≤ headerLength ip ∧ headerLength ip ≤ n
  total : headerLength ip ≤ totalLength ip ∧ totalLength ip ≤ n
  checksum : networkIpv4Checksum (packetOf ip (headerLength ip)) (headerLength ip) = some 0
  unfragmented : be16 ip 6 &&& 0x3FFF = 0

structure CarriesIpv4 (ip : ℕ → UInt8) (n : ℕ) (source : UInt32) (g : TcpSegment) : Prop where
  whole : Whole ip n
  protocol : ip 9 = ipProtocolTcp
  address : be32 ip 12 = source
  segment : tcpSegment (packetOf (behind ip (headerLength ip)) (totalLength ip - headerLength ip))
    (totalLength ip - headerLength ip) source (be32 ip 16) = some (some g)

structure Carries (frame : ℕ → UInt8) (n : ℕ) (source : UInt32) (g : TcpSegment) : Prop where
  type : be16 frame 12 = etherTypeIpv4
  packet : CarriesIpv4 (behind frame ethernetHeaderBytes) (n - ethernetHeaderBytes) source g

theorem receiveIpv4_whole (h : packet.Has m n) (hwhole : Whole m n) :
    s.receiveIpv4 packet n = if m 9 = ipProtocolUdp then
        s.receiveUdp (packet.drop (headerLength m)) (totalLength m - headerLength m)
      else if m 9 = ipProtocolTcp then
        s.receiveTcp (packet.drop (headerLength m)) (totalLength m - headerLength m) (be32 m 12)
          (be32 m 16)
      else some (true, s) := by
  obtain ⟨hlength, hversion, ⟨hlow, hhigh⟩, ⟨htotal, hin⟩, hsum, hfragment⟩ := hwhole
  have hmax : headerLength m ≤ 60 := by
    have hand : (m 0 &&& 0x0F).toNat ≤ 15 := by
      exact Nat.and_le_right
    unfold headerLength
    omega
  have heven : headerLength m % 2 = 0 := by
    unfold headerLength
    omega
  rw [networkIpv4Checksum_eq (packetOf_has m _) hmax hlow heven] at hsum
  unfold receiveIpv4
  simp only [h 0 (by omega), h 9 (by omega), readBe16_eq h (show 2 + 2 ≤ n by omega),
    readBe16_eq h (show 6 + 2 ≤ n by omega), readBe32_eq h (show 12 + 4 ≤ n by omega),
    readBe32_eq h (show 16 + 4 ≤ n by omega), Option.bind_eq_bind, Option.bind_some]
  rw [show (m 0 &&& 0x0F).toNat * 4 = headerLength m from rfl,
    show (be16 m 2).toNat = totalLength m from rfl, if_neg (by omega), if_neg (by simp [hversion]),
    if_neg (by omega), networkIpv4Checksum_eq (h.mono hhigh) hmax hlow heven, hsum]
  simp only [Option.bind_some]
  rw [if_neg (by simp), if_neg (by simp [hfragment])]
  rfl

theorem receiveIpv4_not_whole (h : packet.Has m n) (hwhole : ¬Whole m n) :
    s.receiveIpv4 packet n = some (false, s) := by
  unfold receiveIpv4
  split_ifs with hlength
  · rfl
  simp only [h 0 (by omega), h 9 (by omega), readBe16_eq h (show 2 + 2 ≤ n by omega),
    readBe16_eq h (show 6 + 2 ≤ n by omega), readBe32_eq h (show 12 + 4 ≤ n by omega),
    readBe32_eq h (show 16 + 4 ≤ n by omega), Option.bind_eq_bind, Option.bind_some]
  by_cases hversion : m 0 >>> 4 = 4
  swap
  · rw [if_pos hversion]
    rfl
  rw [if_neg (not_not.2 hversion)]
  by_cases hlengths : headerLength m < 20 ∨ 60 < headerLength m ∨ n < headerLength m
      ∨ totalLength m < headerLength m ∨ n < totalLength m
  · exact if_pos hlengths
  rw [show (m 0 &&& 0x0F).toNat * 4 = headerLength m from rfl, show (be16 m 2).toNat
    = totalLength m from rfl, if_neg hlengths]
  have heven : headerLength m % 2 = 0 := by
    unfold headerLength
    omega
  rw [networkIpv4Checksum_eq (h.mono (show headerLength m ≤ n by omega)) (by omega) (by omega) heven]
  simp only [Option.bind_some]
  by_cases hsum : complement (OnesComplement.fold (OnesComplement.wordSum m 0 (headerLength m))) = 0
  swap
  · rw [if_pos hsum]
    rfl
  rw [if_neg (not_not.2 hsum), if_pos fun hfragment => hwhole ⟨by omega, hversion, by omega,
    by omega, by rw [networkIpv4Checksum_eq (packetOf_has m _) (by omega) (by omega) heven, hsum],
    hfragment⟩]
  rfl

theorem receiveIpv4_cases (h : packet.Has m n) (hn : n < 2 ^ 64) :
    (∃ source g, CarriesIpv4 m n source g
        ∧ s.receiveIpv4 packet n = some (s.receiveSegment source g))
      ∨ (∀ source g, ¬CarriesIpv4 m n source g) ∧ Settles s (s.receiveIpv4 packet n) := by
  by_cases hwhole : Whole m n
  swap
  · rw [receiveIpv4_not_whole h hwhole]
    exact .inr ⟨fun _ _ hg => hwhole hg.whole, settles_refused s⟩
  have hpayload : (packet.drop (headerLength m)).Has (behind m (headerLength m))
      (totalLength m - headerLength m) := (h.drop _).mono (by have := hwhole.total; omega)
  have hlt : totalLength m - headerLength m < 2 ^ 64 := by
    have := hwhole.total
    omega
  rw [receiveIpv4_whole h hwhole]
  by_cases htcp : m 9 = ipProtocolTcp
  swap
  · refine .inr ⟨fun _ _ hg => htcp hg.protocol, ?_⟩
    exact settles_ite (fun _ => receiveUdp_settles hpayload hlt) fun _ => by
      rw [if_neg htcp]
      exact settles_accepted s s
  rw [if_neg (by rw [htcp]; decide), if_pos htcp]
  unfold receiveTcp
  rcases hsegment : tcpSegment (packetOf (behind m (headerLength m))
    (totalLength m - headerLength m)) (totalLength m - headerLength m) (be32 m 12) (be32 m 16)
    with _ | _ | g
  all_goals
    have hread := hsegment
    rw [tcpSegment_eq (packetOf_has _ _), ← tcpSegment_eq hpayload] at hread
  · rw [tcpSegment_eq hpayload] at hread
    cases hread
  · rw [hread]
    refine .inr ⟨fun source g hg => ?_, settles_refused s⟩
    have := hg.segment
    rw [← hg.address, hsegment] at this
    cases this
  · rw [hread]
    exact .inl ⟨_, g, ⟨hwhole, htcp, rfl, hsegment⟩, rfl⟩

/-- A frame carries a segment that reaches the state, or settles. -/
theorem receiveFrame_cases (h : packet.Has m n) (hmin : ethernetMinFrameBytes ≤ n)
    (hn : n < 2 ^ 64) :
    (∃ source g, Carries m n source g ∧ s.receiveFrame packet n = some (s.receiveSegment source g))
      ∨ (∀ source g, ¬Carries m n source g) ∧ Settles s (s.receiveFrame packet n) := by
  have hpayload := h.drop ethernetHeaderBytes
  unfold ethernetMinFrameBytes at hmin
  unfold receiveFrame
  simp only [readBe16_eq h (show 12 + 2 ≤ n by omega), Option.bind_eq_bind, Option.bind_some]
  by_cases hip : be16 m 12 = etherTypeIpv4
  · rw [hip, if_neg (by decide), if_pos rfl]
    rcases receiveIpv4_cases (s := s) hpayload (by omega) with ⟨source, g, hg, heq⟩ | ⟨hnone, hs⟩
    · exact .inl ⟨source, g, ⟨hip, hg⟩, heq⟩
    · exact .inr ⟨fun source g hg => hnone source g hg.packet, hs⟩
  · refine .inr ⟨fun source g hg => hip hg.type, ?_⟩
    refine settles_ite (fun _ => receiveArp_settles hpayload) fun _ => ?_
    rw [if_neg hip]
    exact settles_refused s

theorem Carries.unique {source source' : UInt32} {g g' : TcpSegment} (h : Carries m n source g)
    (h' : Carries m n source' g') : source = source' ∧ g = g' := by
  obtain rfl : source = source' := h.packet.address.symm.trans h'.packet.address
  exact ⟨rfl, Option.some.inj (Option.some.inj (h.packet.segment.symm.trans h'.packet.segment))⟩

theorem Carries.receiveEthernet {frame : ℕ → UInt8} {length : UInt64} {source : UInt32}
    {g : TcpSegment} (h : Carries frame length.toNat source g)
    (hmin : ethernetMinFrameBytes ≤ length.toNat) (hup : s.link = .up) :
    ∃ received dropped, s.receiveEthernet frame length
      = some ((s.receiveSegment source g).1, { (s.receiveSegment source g).2 with
        receivedFrames := received, droppedFrames := dropped }) := by
  have hframe : s.receiveFrame (packetOf frame length.toNat) length.toNat
      = some (s.receiveSegment source g) := by
    rcases receiveFrame_cases (s := s) (packetOf_has frame length.toNat) hmin length.toNat_lt
      with ⟨source', g', h', heq⟩ | ⟨hnone, -⟩
    · obtain ⟨rfl, rfl⟩ := h.unique h'
      exact heq
    · exact absurd h (hnone _ _)
  unfold Network.receiveEthernet
  rw [if_neg (by rw [not_or, not_lt, not_not]; exact ⟨hmin, hup⟩), hframe]
  rcases s.receiveSegment source g with ⟨accepted, t⟩
  cases accepted
  · exact ⟨_, _, rfl⟩
  · exact ⟨_, _, rfl⟩

/-- Whatever a frame says of its own lengths, every byte that is read lies in it and every loop
ends: there is a result. -/
theorem receiveEthernet_isSome (s : Network) (frame : ℕ → UInt8) (length : UInt64) :
    (s.receiveEthernet frame length).isSome := by
  unfold receiveEthernet
  split_ifs with hdropped
  · rfl
  rw [not_or, not_lt] at hdropped
  have hresult : ∃ accepted t,
      s.receiveFrame (packetOf frame length.toNat) length.toNat = some (accepted, t) := by
    rcases receiveFrame_cases (s := s) (packetOf_has frame length.toNat) hdropped.1 length.toNat_lt
      with ⟨source, g, -, heq⟩ | ⟨-, accepted, t, heq, -⟩
    · exact ⟨_, _, heq⟩
    · exact ⟨_, _, heq⟩
  obtain ⟨accepted, t, heq⟩ := hresult
  rw [heq]
  cases accepted <;> rfl

end

end Network

end DemonOS
