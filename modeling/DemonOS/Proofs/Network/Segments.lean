import DemonOS.Proofs.Network.Reads

/-!
# What a segment does to the state

A segment is refused, has no data, or has its data taken (`receiveSegment_cases`). What is pending
is a list of bytes, and taken data goes to its end.
-/

namespace DemonOS

namespace Network

/-- The data of the segment is not taken: it is not what comes next, or too long. -/
def Refuses (s : Network) (source : UInt32) (g : TcpSegment) : Prop :=
  g.data ≠ [] ∧ if s.pendingTcpDataLength = 0 then tcpReceiveLimit < g.data.length
    else ¬s.Accepts source g

def pendingData (s : Network) : List UInt8 :=
  (List.range s.pendingTcpDataLength).map s.pendingTcpData

@[simp] theorem length_pendingData (s : Network) :
    s.pendingData.length = s.pendingTcpDataLength := by simp [pendingData]

def Notes (s t : Network) (source : UInt32) (g : TcpSegment) : Prop :=
  if g.fin then t.pendingTcpFin = true ∧ t.pendingTcpFinAddress = source
    ∧ t.pendingTcpFinRemotePort = g.sourcePort ∧ t.pendingTcpFinLocalPort = g.destinationPort
    ∧ t.pendingTcpFinNextSequence = g.sequence + UInt32.ofNat g.data.length + 1
  else t.pendingTcpFin = s.pendingTcpFin ∧ t.pendingTcpFinAddress = s.pendingTcpFinAddress
    ∧ t.pendingTcpFinRemotePort = s.pendingTcpFinRemotePort
    ∧ t.pendingTcpFinLocalPort = s.pendingTcpFinLocalPort
    ∧ t.pendingTcpFinNextSequence = s.pendingTcpFinNextSequence

/-- The pending data stays as it is. -/
structure Keeps (s t : Network) : Prop where
  link : t.link = s.link
  length : t.pendingTcpDataLength = s.pendingTcpDataLength
  data : t.pendingData = s.pendingData
  connection : s.pendingTcpDataLength ≠ 0 → t.pendingTcpDataAddress = s.pendingTcpDataAddress
    ∧ t.pendingTcpDataRemotePort = s.pendingTcpDataRemotePort
    ∧ t.pendingTcpDataLocalPort = s.pendingTcpDataLocalPort
    ∧ t.pendingTcpDataNextSequence = s.pendingTcpDataNextSequence

/-- The data of the segment goes behind the pending data, which is of its connection. -/
structure Takes (s t : Network) (source : UInt32) (g : TcpSegment) : Prop where
  link : t.link = s.link
  length : t.pendingTcpDataLength = s.pendingTcpDataLength + g.data.length
  data : t.pendingData = s.pendingData ++ g.data
  address : t.pendingTcpDataAddress = source
  remotePort : t.pendingTcpDataRemotePort = g.sourcePort
  localPort : t.pendingTcpDataLocalPort = g.destinationPort
  next : t.pendingTcpDataNextSequence
    = g.sequence + UInt32.ofNat g.data.length + if g.fin then 1 else 0

section

variable {s t : Network} {source : UInt32} {g : TcpSegment}

theorem takeConnection_takeFin_accepts (s : Network) (source : UInt32) (g : TcpSegment) :
    ((s.takeFin source g).takeConnection source g).Accepts source g
      ↔ if s.pendingTcpDataLength = 0 then g.data.length ≤ tcpReceiveLimit
        else s.Accepts source g := by
  unfold takeFin takeConnection
  split_ifs with hfin hempty <;> simp_all [Accepts, tcpReceiveLimit]

theorem receiveSegment_refused (h : s.Refuses source g) :
    s.receiveSegment source g = (false, (s.takeFin source g).takeConnection source g) := by
  have haccepts : ¬((s.takeFin source g).takeConnection source g).Accepts source g := by
    rw [takeConnection_takeFin_accepts]
    have := h.2
    split_ifs at this ⊢
    · omega
    · exact this
  unfold receiveSegment
  dsimp only
  rw [if_neg h.1, if_neg haccepts]

theorem receiveSegment_empty (h : g.data = []) :
    s.receiveSegment source g = (true, (s.takeFin source g).takeSynAck source g) := by
  unfold receiveSegment
  dsimp only
  rw [if_pos h]

theorem receiveSegment_taken (hdata : g.data ≠ []) (h : ¬s.Refuses source g) :
    s.receiveSegment source g
      = (true, (((s.takeFin source g).takeConnection source g).takeData g).takeSynAck source g) := by
  have haccepts : ((s.takeFin source g).takeConnection source g).Accepts source g := by
    rw [takeConnection_takeFin_accepts]
    by_contra hnot
    refine h ⟨hdata, ?_⟩
    split_ifs at hnot ⊢
    · omega
    · exact hnot
  unfold receiveSegment
  dsimp only
  rw [if_neg hdata, if_pos haccepts]

theorem receiveSegment_accepted (h : ¬s.Refuses source g) :
    (s.receiveSegment source g).1 = true := by
  by_cases hdata : g.data = []
  · rw [receiveSegment_empty hdata]
  · rw [receiveSegment_taken hdata h]

theorem takeFin_notes (s : Network) (source : UInt32) (g : TcpSegment) :
    s.Notes (s.takeFin source g) source g := by
  unfold Notes takeFin
  split_ifs <;> simp

theorem takeFin_keeps (s : Network) (source : UInt32) (g : TcpSegment) :
    s.Keeps (s.takeFin source g) := by
  unfold takeFin
  split_ifs <;> exact ⟨rfl, rfl, rfl, fun _ => ⟨rfl, rfl, rfl, rfl⟩⟩

theorem takeConnection_keeps (s : Network) (source : UInt32) (g : TcpSegment) :
    s.Keeps (s.takeConnection source g) := by
  unfold takeConnection
  split_ifs with hempty
  · exact ⟨rfl, rfl, rfl, fun h => absurd hempty h⟩
  · exact ⟨rfl, rfl, rfl, fun _ => ⟨rfl, rfl, rfl, rfl⟩⟩

theorem takeSynAck_keeps (s : Network) (source : UInt32) (g : TcpSegment) :
    s.Keeps (s.takeSynAck source g) := by
  unfold takeSynAck
  split_ifs <;> exact ⟨rfl, rfl, rfl, fun _ => ⟨rfl, rfl, rfl, rfl⟩⟩

theorem Keeps.trans {u : Network} (h : s.Keeps t) (h' : t.Keeps u) : s.Keeps u := by
  refine ⟨h'.link.trans h.link, h'.length.trans h.length, h'.data.trans h.data, fun hs => ?_⟩
  obtain ⟨h1, h2, h3, h4⟩ := h.connection hs
  obtain ⟨h1', h2', h3', h4'⟩ := h'.connection (h.length ▸ hs)
  exact ⟨h1'.trans h1, h2'.trans h2, h3'.trans h3, h4'.trans h4⟩

theorem pendingData_takeData (s : Network) (g : TcpSegment) :
    (s.takeData g).pendingData = s.pendingData ++ g.data := by
  refine List.ext_getElem (by simp [takeData]) fun i hi _ => ?_
  simp only [length_pendingData] at hi
  rw [List.getElem_append]
  simp only [pendingData, takeData, List.getElem_map, List.getElem_range, List.length_map,
    List.length_range] at hi ⊢
  split_ifs with hnew hold hold
  · omega
  · rw [List.getD_eq_getElem?_getD, List.getElem?_eq_getElem, Option.getD_some]
  · rfl
  · omega

theorem takeConnection_place (h : ¬s.Refuses source g) (hdata : g.data ≠ []) :
    (s.takeConnection source g).pendingTcpDataAddress = source
      ∧ (s.takeConnection source g).pendingTcpDataRemotePort = g.sourcePort
      ∧ (s.takeConnection source g).pendingTcpDataLocalPort = g.destinationPort
      ∧ (s.takeConnection source g).pendingTcpDataNextSequence = g.sequence := by
  unfold takeConnection
  split_ifs with hempty
  · exact ⟨rfl, rfl, rfl, rfl⟩
  · have haccepts : s.Accepts source g := by
      by_contra hnot
      exact h ⟨hdata, by rwa [if_neg hempty]⟩
    exact ⟨haccepts.1, haccepts.2.1, haccepts.2.2.1, haccepts.2.2.2.1⟩

theorem takeFin_refuses : (s.takeFin source g).Refuses source g ↔ s.Refuses source g := by
  unfold Refuses Accepts takeFin
  split_ifs <;> rfl

inductive Receives (s : Network) (source : UInt32) (g : TcpSegment) : Bool → Network → Prop
  | refused {t : Network} (h : s.Refuses source g) (hkeeps : s.Keeps t)
      (hnotes : s.Notes t source g) : Receives s source g false t
  | empty {t : Network} (hdata : g.data = []) (hkeeps : s.Keeps t)
      (hnotes : s.Notes t source g) : Receives s source g true t
  | taken {t : Network} (hdata : g.data ≠ []) (h : ¬s.Refuses source g)
      (htakes : s.Takes t source g) (hnotes : s.Notes t source g) : Receives s source g true t

theorem receiveSegment_receives (s : Network) (source : UInt32) (g : TcpSegment) :
    s.Receives source g (s.receiveSegment source g).1 (s.receiveSegment source g).2 := by
  have hfin := takeFin_keeps s source g
  have hnotes := takeFin_notes s source g
  by_cases hdata : g.data = []
  · rw [receiveSegment_empty hdata]
    refine .empty hdata (hfin.trans (takeSynAck_keeps _ source g)) ?_
    unfold takeSynAck
    split_ifs <;> exact hnotes
  by_cases h : s.Refuses source g
  · rw [receiveSegment_refused h]
    refine .refused h (hfin.trans (takeConnection_keeps _ source g)) ?_
    unfold takeConnection
    split_ifs <;> exact hnotes
  rw [receiveSegment_taken hdata h]
  obtain ⟨haddress, hremote, hlocal, hplace⟩ := takeConnection_place
    (takeFin_refuses.not.2 h) hdata
  have hkeeps := hfin.trans (takeConnection_keeps (s.takeFin source g) source g)
  refine .taken hdata h ?_ ?_
  · have hlast := takeSynAck_keeps (((s.takeFin source g).takeConnection source g).takeData g)
      source g
    have hne : (((s.takeFin source g).takeConnection source g).takeData g).pendingTcpDataLength
        ≠ 0 := by
      have := List.length_pos_iff.2 hdata
      simp only [takeData]
      omega
    obtain ⟨h1, h2, h3, h4⟩ := hlast.connection hne
    refine ⟨hlast.link.trans hkeeps.link, hlast.length.trans ?_, ?_, h1.trans haddress,
      h2.trans hremote, h3.trans hlocal, h4.trans ?_⟩
    · simp only [takeData]
      rw [hkeeps.length]
    · rw [hlast.data, pendingData_takeData, hkeeps.data]
    · simp only [takeData]
      rw [hplace]
  · unfold takeSynAck takeData takeConnection
    split_ifs <;> exact hnotes

end

end Network

/-!
## Frames that are refused

A frame that is refused is meant to change the count of dropped frames and nothing else. All but one
kind of it do: `receive_tcp` notes that the peer has finished, and the connection that the data is
of, before it finds that the data does not follow what it has or does not fit
(`receiveEthernet_intact_iff`).
-/

namespace Network

/-- What is noted of the segment before its data is looked at is what the state says already. -/
structure Recorded (s : Network) (source : UInt32) (g : TcpSegment) : Prop where
  fin : g.fin → s.pendingTcpFin = true ∧ s.pendingTcpFinAddress = source
    ∧ s.pendingTcpFinRemotePort = g.sourcePort ∧ s.pendingTcpFinLocalPort = g.destinationPort
    ∧ s.pendingTcpFinNextSequence = g.sequence + UInt32.ofNat g.data.length + 1
  connection : s.pendingTcpDataLength = 0 → s.pendingTcpDataAddress = source
    ∧ s.pendingTcpDataRemotePort = g.sourcePort ∧ s.pendingTcpDataLocalPort = g.destinationPort
    ∧ s.pendingTcpDataNextSequence = g.sequence

section

variable {s t : Network} {source : UInt32} {g : TcpSegment}

theorem eq_of_uncounted {k k' : UInt64} (hcount : t.droppedFrames = s.droppedFrames)
    (h : { t with droppedFrames := k } = { s with droppedFrames := k' }) : t = s := by
  cases s
  cases t
  simp_all

theorem takeConnection_takeFin_droppedFrames (s : Network) (source : UInt32) (g : TcpSegment) :
    ((s.takeFin source g).takeConnection source g).droppedFrames = s.droppedFrames := by
  unfold takeFin takeConnection
  split_ifs <;> rfl

theorem takeConnection_takeFin_eq_iff :
    (s.takeFin source g).takeConnection source g = s ↔ s.Recorded source g := by
  constructor
  · intro h
    refine ⟨fun hfin => ?_, fun hempty => ?_⟩
    · have hnoted : ((s.takeFin source g).takeConnection source g).pendingTcpFin = true
          ∧ ((s.takeFin source g).takeConnection source g).pendingTcpFinAddress = source
          ∧ ((s.takeFin source g).takeConnection source g).pendingTcpFinRemotePort = g.sourcePort
          ∧ ((s.takeFin source g).takeConnection source g).pendingTcpFinLocalPort
            = g.destinationPort
          ∧ ((s.takeFin source g).takeConnection source g).pendingTcpFinNextSequence
            = g.sequence + UInt32.ofNat g.data.length + 1 := by
        unfold takeFin takeConnection
        split_ifs <;> simp
      rwa [h] at hnoted
    · have hnoted : ((s.takeFin source g).takeConnection source g).pendingTcpDataAddress = source
          ∧ ((s.takeFin source g).takeConnection source g).pendingTcpDataRemotePort = g.sourcePort
          ∧ ((s.takeFin source g).takeConnection source g).pendingTcpDataLocalPort
            = g.destinationPort
          ∧ ((s.takeFin source g).takeConnection source g).pendingTcpDataNextSequence
            = g.sequence := by
        unfold takeFin takeConnection
        split_ifs <;> simp_all
      rwa [h] at hnoted
  · rintro ⟨hfin, hconnection⟩
    have hfirst : s.takeFin source g = s := by
      unfold takeFin
      split_ifs with h
      · obtain ⟨h1, h2, h3, h4, h5⟩ := hfin h
        rw [← h1, ← h2, ← h3, ← h4, ← h5]
      · rfl
    rw [hfirst]
    unfold takeConnection
    split_ifs with h
    · obtain ⟨h1, h2, h3, h4⟩ := hconnection h
      rw [← h1, ← h2, ← h3, ← h4]
    · rfl

/-- A frame that is refused changes nothing but the count of the frames that are dropped, just where
it is no segment whose data is refused after something new has been noted of it. -/
theorem receiveEthernet_intact_iff (s : Network) (frame : ℕ → UInt8) (length : UInt64) :
    (∀ t, s.receiveEthernet frame length = some (false, t) →
        t = { s with droppedFrames := s.droppedFrames + 1 })
      ↔ (ethernetMinFrameBytes ≤ length.toNat → s.link = .up → ∀ source g,
        Carries frame length.toNat source g → s.Refuses source g → s.Recorded source g) := by
  unfold receiveEthernet
  by_cases hdropped : length.toNat < ethernetMinFrameBytes ∨ s.link ≠ .up
  · rw [if_pos hdropped]
    refine iff_of_true (fun t ht => ?_) fun hmin hup => ?_
    · exact (Prod.mk.inj (Option.some.inj ht)).2.symm
    · exact absurd hdropped (by rw [not_or, not_lt, not_not]; exact ⟨hmin, hup⟩)
  rw [if_neg hdropped]
  rw [not_or, not_lt, not_not] at hdropped
  rcases receiveFrame_cases (s := s) (packetOf_has frame length.toNat) hdropped.1 length.toNat_lt
    with ⟨source, g, hcarries, heq⟩ | ⟨hnone, accepted, u, heq, hsame⟩ <;> rw [heq]
  · by_cases hrefuses : s.Refuses source g
    · rw [receiveSegment_refused hrefuses]
      constructor
      · intro h _ _ source' g' hcarries' _
        obtain ⟨rfl, rfl⟩ := hcarries.unique hcarries'
        exact takeConnection_takeFin_eq_iff.1
          (eq_of_uncounted (takeConnection_takeFin_droppedFrames s source g) (h _ rfl))
      · intro h t ht
        have hrecorded := h hdropped.1 hdropped.2 source g hcarries hrefuses
        rw [← (Prod.mk.inj (Option.some.inj ht)).2, takeConnection_takeFin_eq_iff.2 hrecorded]
    · have haccepted := receiveSegment_accepted hrefuses
      refine iff_of_true (fun t ht => ?_) fun _ _ source' g' hcarries' hrefuses' => ?_
      · rcases hsegment : s.receiveSegment source g with ⟨accepted, u⟩
        rw [hsegment] at haccepted ht
        obtain rfl : accepted = true := haccepted
        cases ht
      · obtain ⟨rfl, rfl⟩ := hcarries.unique hcarries'
        exact absurd hrefuses' hrefuses
  · refine iff_of_true (fun t ht => ?_) fun _ _ source g hcarries => absurd hcarries (hnone source g)
    cases accepted with
    | true => cases ht
    | false => rw [← (Prod.mk.inj (Option.some.inj ht)).2, hsame rfl]

end

def segmentFrame (sequence flags : UInt8) (checksum : UInt16) (data : UInt8) : ℕ → UInt8 := fun i =>
  [2, 0, 0, 0, 0, 1, 2, 0, 0, 0, 0, 2, 8, 0, 69, 0, 0, 41, 0, 5, 0, 0, 64, 6, 98, 186, 10, 0, 2, 2,
    10, 0, 2, 15, 0, 80, 192, 49, 0, 0, 0, sequence, 0, 0, 0, 1, 80, flags, 64, 0,
    UInt8.ofNat (checksum.toNat / 2 ^ 8), UInt8.ofNat checksum.toNat, 0, 0, data].getD i 0

/-- The machine after byte 100 of the peer has come. -/
def receiving : Network :=
  ((linked.receiveEthernet (segmentFrame 100 0x18 0x55D4 65) 60).map Prod.snd).getD linked

/-- The last segment comes before the one that it follows: it is refused, and the peer has finished
all the same. -/
theorem receiveEthernet_not_intact :
    ¬∀ (s : Network) (frame : ℕ → UInt8) (length : UInt64) (t : Network),
      s.receiveEthernet frame length = some (false, t) →
        t = { s with droppedFrames := s.droppedFrames + 1 } := by
  intro h
  have hrun : (receiving.receiveEthernet (segmentFrame 200 0x19 0x546F 66) 60).map
      (fun r => (r.1, r.2.pendingTcpFin)) = some (false, true) := by decide +kernel
  have hbefore : receiving.pendingTcpFin = false := by decide +kernel
  rcases hresult : receiving.receiveEthernet (segmentFrame 200 0x19 0x546F 66) 60
    with _ | ⟨accepted, t⟩ <;> rw [hresult] at hrun
  · cases hrun
  · obtain ⟨rfl, hfin⟩ := Prod.mk.inj (Option.some.inj hrun)
    rw [h _ _ _ t hresult, hbefore] at hfin
    cases hfin

end Network

end DemonOS
