import DemonOS.Network.Transmit
import DemonOS.Proofs.Network.Writes
import Mathlib.Data.List.GetD
import Mathlib.Data.List.TakeWhile

/-!
# The question of a DNS query

`network_build_dns_query` takes all lengths from the name before it cuts it into labels. A name is a
byte longer with its labels encoded, and another for the label that ends it, unless it ends in a
period: the empty label behind the last period is not written. The question reads back as the labels
of the name and ends with the datagram just for the names that do not (`query_asks_iff`).
-/

namespace DemonOS

namespace Network

/-! ## Reading a name -/

def readName (packet : Packet) (length : ℕ) : ℕ → ℕ → Option (Option (List (List UInt8) × ℕ))
  | 0, _ => none
  | rounds + 1, offset =>
    if length ≤ offset then some none
    else do
      let label ← packet offset
      let offset ← sizeAdd offset 1
      if label = 0 then return some ([], offset)
      else if label &&& 0xC0 = 0xC0 then return none
      else do
        let rest ← sizeSub length offset
        if 63 < label.toNat ∨ rest < label.toNat then return none
        else do
          let bytes ← (List.range label.toNat).mapM fun i => packet (offset + i)
          let offset ← sizeAdd offset label.toNat
          match ← readName packet length rounds offset with
          | none => return none
          | some (labels, offset) => return some (bytes :: labels, offset)

def encoded (labels : List (List UInt8)) : List UInt8 :=
  labels.flatMap fun label => UInt8.ofNat label.length :: label

section

variable {packet : Packet} {length : ℕ}

theorem dnsSkipName_of_readName : ∀ {rounds offset end_ : ℕ} {labels : List (List UInt8)},
    readName packet length rounds offset = some (some (labels, end_)) →
      dnsSkipName packet length rounds offset = some end_
  | 0, _, _, _, h => by cases h
  | rounds + 1, offset, end_, labels, h => by
    rw [readName] at h
    rw [dnsSkipName]
    split_ifs at h ⊢ with hend
    · cases h
    obtain ⟨label, hlabel, h⟩ := Option.bind_eq_some_iff.1 h
    obtain ⟨next, hnext, h⟩ := Option.bind_eq_some_iff.1 h
    simp only [hlabel, hnext, Option.bind_eq_bind, Option.bind_some]
    split_ifs at h ⊢ with hzero hpointer
    · obtain ⟨-, rfl⟩ : [] = labels ∧ next = end_ := by simpa using h
      rfl
    all_goals first
      | cases h
      | skip
    obtain ⟨rest, hrest, h⟩ := Option.bind_eq_some_iff.1 h
    rw [hrest, Option.bind_some]
    split_ifs at h ⊢ with hlong
    · cases h
    obtain ⟨bytes, -, h⟩ := Option.bind_eq_some_iff.1 h
    obtain ⟨behind, hbehind, h⟩ := Option.bind_eq_some_iff.1 h
    obtain ⟨tail, htail, h⟩ := Option.bind_eq_some_iff.1 h
    rw [hbehind, Option.bind_some]
    rcases tail with _ | ⟨labels', end'⟩
    · cases h
    · obtain ⟨-, rfl⟩ : bytes :: labels' = labels ∧ end' = end_ := by simpa using h
      exact dnsSkipName_of_readName htail

theorem encoded_cons (label : List UInt8) (labels : List (List UInt8)) :
    encoded (label :: labels) = UInt8.ofNat label.length :: (label ++ encoded labels) := by
  simp [encoded]

theorem labelLength_plain {k : ℕ} (hpos : 0 < k) (hshort : k ≤ 63) :
    (UInt8.ofNat k).toNat = k ∧ UInt8.ofNat k ≠ 0 ∧ UInt8.ofNat k &&& 0xC0 ≠ 0xC0 := by
  have hsize : (UInt8.ofNat k).toNat = k := by
    simp
    omega
  refine ⟨hsize, fun hzero => ?_, fun hpointer => ?_⟩
  · rw [hzero] at hsize
    exact absurd hsize (by simp; omega)
  · have hand : (UInt8.ofNat k &&& 0xC0).toNat ≤ k := by
      rw [UInt8.toNat_and, hsize]
      exact Nat.and_le_left
    rw [hpointer] at hand
    exact absurd hand (by simp; omega)

theorem readName_encoded {m : ℕ → UInt8} (h : packet.Has m length) (hmax : length < 2 ^ 64) :
    ∀ (labels : List (List UInt8)) {rounds offset : ℕ},
      (∀ label ∈ labels, 0 < label.length ∧ label.length ≤ 63) → labels.length < rounds →
      (∀ i byte, (encoded labels ++ [0])[i]? = some byte → m (offset + i) = byte) →
      offset + (encoded labels).length + 1 ≤ length →
      readName packet length rounds offset
        = some (some (labels, offset + (encoded labels).length + 1))
  | _, 0, _, _, hrounds, _, _ => absurd hrounds (Nat.not_lt_zero _)
  | [], rounds + 1, offset, _, _, hbytes, hlength => by
    have hzero := hbytes 0 0 rfl
    simp only [encoded, List.flatMap_nil, List.length_nil, Nat.add_zero] at hzero hlength ⊢
    rw [readName, if_neg (by omega), h offset (by omega), hzero]
    simp only [Option.bind_eq_bind, Option.bind_some, sizeAdd_eq (show offset + 1 < 2 ^ 64 by omega)]
    rfl
  | label :: labels, rounds + 1, offset, hgood, hrounds, hbytes, hlength => by
    obtain ⟨hpos, hshort⟩ := hgood label (List.mem_cons_self ..)
    obtain ⟨hsize, hzero, hpointer⟩ := labelLength_plain hpos hshort
    rw [encoded_cons] at hbytes hlength ⊢
    simp only [List.length_cons, List.length_append] at hlength ⊢
    have hfirst : m offset = UInt8.ofNat label.length := hbytes 0 _ rfl
    have hlabel : (List.range label.length).map (fun i => m (offset + 1 + i)) = label := by
      refine List.ext_getElem (by simp) fun i hi hi' => ?_
      rw [List.getElem_map, List.getElem_range, Nat.add_assoc, Nat.add_comm 1 i]
      refine hbytes (i + 1) _ ?_
      rw [List.cons_append, List.getElem?_cons_succ, List.append_assoc,
        List.getElem?_append_left hi', List.getElem?_eq_getElem hi']
    have htail := @readName_encoded _ h hmax labels rounds (offset + 1 + label.length)
      (fun label' hmem => hgood label' (List.mem_cons_of_mem _ hmem)) (by simpa using hrounds)
      (fun i byte hbyte => by
        rw [show offset + 1 + label.length + i = offset + (label.length + i + 1) by omega]
        refine hbytes _ byte ?_
        rw [List.cons_append, List.getElem?_cons_succ, List.append_assoc,
          List.getElem?_append_right (Nat.le_add_right ..), Nat.add_sub_cancel_left]
        exact hbyte) (by omega)
    rw [readName, if_neg (by omega), h offset (by omega), hfirst]
    simp only [Option.bind_eq_bind, Option.bind_some, sizeAdd_eq (show offset + 1 < 2 ^ 64 by omega),
      if_neg hzero, if_neg hpointer, sizeSub_eq (show offset + 1 ≤ length by omega), hsize,
      readBytes_eq h (offset + 1) (List.range label.length)
        (fun i hi => by have := List.mem_range.1 hi; omega), hlabel,
      sizeAdd_eq (show offset + 1 + label.length < 2 ^ 64 by omega), htail]
    rw [if_neg (by omega)]
    refine congrArg (fun end_ => some (some (label :: labels, end_))) ?_
    omega

end

/-! ## Cutting a name into labels -/

def hostnameOf (hostname : ℕ → UInt8) : List UInt8 :=
  (List.range (hostnameLength hostname)).map hostname

def writtenLabels (rest : List UInt8) : List (List UInt8) :=
  if rest = [] then []
  else if rest.getLast? = some period then (rest.splitOn period).dropLast
  else rest.splitOn period

def behindLabel (rest : List UInt8) : List UInt8 :=
  rest.drop ((rest.takeWhile (· != period)).length + 1)

theorem length_behindLabel {rest : List UInt8} (h : rest ≠ []) :
    (behindLabel rest).length < rest.length := by
  have hpos := List.length_pos_iff.2 h
  rw [behindLabel, List.length_drop]
  omega

theorem label_cases (rest : List UInt8) :
    (period ∉ rest ∧ rest.takeWhile (· != period) = rest ∧ behindLabel rest = [])
      ∨ rest = rest.takeWhile (· != period) ++ period :: behindLabel rest := by
  have hsplit := List.takeWhile_append_dropWhile (p := (· != period)) (l := rest)
  rcases hdrop : rest.dropWhile (· != period) with _ | ⟨c, tail⟩
  · rw [hdrop, List.append_nil] at hsplit
    refine .inl ⟨fun hmem => ?_, hsplit, ?_⟩
    · have hall := List.takeWhile_eq_self_iff.1 hsplit period hmem
      simp at hall
    · rw [behindLabel, hsplit]
      exact List.drop_eq_nil_of_le (Nat.le_succ _)
  · have hc : c = period := by
      have hhead := List.head?_dropWhile_not (· != period) rest
      rw [hdrop] at hhead
      simpa using hhead
    refine .inr ?_
    rw [hdrop, hc] at hsplit
    have hbehind : (rest.takeWhile (· != period) ++ period :: tail).drop
        ((rest.takeWhile (· != period)).length + 1) = tail := by
      rw [List.drop_append, List.drop_eq_nil_of_le (Nat.le_succ _), List.nil_append,
        Nat.add_sub_cancel_left, List.drop_one, List.tail_cons]
    rw [hsplit] at hbehind
    rw [behindLabel, hbehind, hsplit]

theorem writtenLabels_eq {rest : List UInt8} (h : rest ≠ []) :
    writtenLabels rest
      = rest.takeWhile (· != period) :: writtenLabels (behindLabel rest) := by
  rcases label_cases rest with ⟨hnone, hall, hbehind⟩ | hsplit
  · have hlast : rest.getLast? ≠ some period := fun hlast => hnone (List.mem_of_getLast? hlast)
    rw [writtenLabels, if_neg h, if_neg hlast, List.splitOn_eq_singleton hnone, hall, hbehind,
      writtenLabels, if_pos rfl]
  · have hlabel : period ∉ rest.takeWhile (· != period) := fun hmem => by
      simpa using List.mem_takeWhile_imp hmem
    have hon : rest.splitOn period
        = rest.takeWhile (· != period) :: (behindLabel rest).splitOn period := by
      conv_lhs => rw [hsplit]
      exact List.splitOn_append_cons_self_of_not_mem hlabel _
    have hlast : rest.getLast? = some ((behindLabel rest).getLast?.getD period) := by
      conv_lhs => rw [hsplit]
      rw [List.getLast?_append, List.getLast?_cons, Option.some_or]
    rw [writtenLabels, if_neg h, hon, hlast]
    by_cases htail : behindLabel rest = []
    · simp [htail, writtenLabels]
    · rw [writtenLabels, if_neg htail, List.getLast?_eq_some_getLast htail, Option.getD_some]
      split_ifs
      · rw [List.dropLast_cons_of_ne_nil (List.splitOn_ne_nil _ _)]
      · rfl

theorem length_encoded : ∀ (n : ℕ) (rest : List UInt8), rest.length ≤ n → rest ≠ [] →
    (encoded (writtenLabels rest)).length
      = rest.length + if rest.getLast? = some period then 0 else 1
  | 0, rest, hn, hne => absurd (List.length_pos_iff.2 hne) (by omega)
  | n + 1, rest, hn, hne => by
    rw [writtenLabels_eq hne, encoded_cons, List.length_cons, List.length_append]
    rcases label_cases rest with ⟨hnone, hall, hbehind⟩ | hsplit
    · have hlast : rest.getLast? ≠ some period := fun hlast => hnone (List.mem_of_getLast? hlast)
      rw [hall, hbehind, if_neg hlast]
      simp [writtenLabels, encoded]
    · have hlength : rest.length = (rest.takeWhile (· != period)).length
          + ((behindLabel rest).length + 1) := by
        conv_lhs => rw [hsplit]
        rw [List.length_append, List.length_cons]
      have hlast : rest.getLast? = some ((behindLabel rest).getLast?.getD period) := by
        conv_lhs => rw [hsplit]
        rw [List.getLast?_append, List.getLast?_cons, Option.some_or]
      by_cases htail : behindLabel rest = []
      · rw [htail, List.length_nil] at hlength
        rw [hlast, htail]
        simp only [writtenLabels, if_true, encoded, List.flatMap_nil, List.length_nil,
          List.getLast?_nil, Option.getD_none]
        omega
      · have hsame : (rest.getLast? = some period) = ((behindLabel rest).getLast? = some period) := by
          rw [hlast, List.getLast?_eq_some_getLast htail, Option.getD_some]
        rw [length_encoded n _ (by have := length_behindLabel hne; omega) htail]
        rw [if_congr (iff_of_eq hsame) rfl rfl]
        omega

theorem writeBytes_append (m : ℕ → UInt8) (i : ℕ) (xs ys : List UInt8) :
    writeBytes (writeBytes m i xs) (i + xs.length) ys = writeBytes m i (xs ++ ys) := by
  funext a
  simp only [writeBytes, List.length_append]
  by_cases hbehind : i + xs.length ≤ a ∧ a < i + xs.length + ys.length
  · rw [if_pos hbehind, if_pos (by omega), List.getD_append_right _ _ _ _ (by omega)]
    congr 1
    omega
  · rw [if_neg hbehind]
    by_cases hin : i ≤ a ∧ a < i + xs.length
    · rw [if_pos hin, if_pos (by omega), List.getD_append _ _ _ _ (by omega)]
    · rw [if_neg hin, if_neg (by omega)]

theorem writeByte_eq (m : ℕ → UInt8) (i : ℕ) (value : UInt8) :
    writeByte m i value = writeBytes m i [value] := by
  funext a
  simp only [writeByte, writeBytes, List.length_singleton]
  refine ite_congr (by rw [eq_iff_iff]; omega) (fun ha => ?_) fun _ => rfl
  rw [show a - i = 0 by omega]
  rfl

theorem queryLabels_eq : ∀ (rounds : ℕ) (rest : List UInt8) (destination : ℕ) (frame : ℕ → UInt8),
    rest.length < rounds →
      ∃ r frame', queryLabels rounds rest destination frame = some (r, frame')
        ∧ ∀ end_, r = some end_ →
          (∀ label ∈ writtenLabels rest, 0 < label.length ∧ label.length ≤ 63)
            ∧ end_ = destination + (encoded (writtenLabels rest)).length
            ∧ frame' = writeBytes frame (42 + destination) (encoded (writtenLabels rest))
  | 0, _, _, _, hrounds => absurd hrounds (Nat.not_lt_zero _)
  | rounds + 1, rest, destination, frame, hrounds => by
    rw [queryLabels]
    dsimp only
    split_ifs with hempty hbad
    · refine ⟨_, _, rfl, fun end_ hend => ?_⟩
      obtain rfl := Option.some.inj hend
      rw [writtenLabels, if_pos hempty]
      refine ⟨by simp, rfl, funext fun a => (if_neg ?_).symm⟩
      simp [encoded]
    · exact ⟨_, _, rfl, fun end_ hend => by cases hend⟩
    · have hlt := length_behindLabel hempty
      obtain ⟨r, frame', hloop, hwritten⟩ := queryLabels_eq rounds (behindLabel rest)
        (destination + 1 + (rest.takeWhile (· != period)).length)
        (writeBytes (writeByte frame (42 + destination)
          (UInt8.ofNat (rest.takeWhile (· != period)).length)) (42 + destination + 1)
          (rest.takeWhile (· != period))) (by omega)
      refine ⟨r, frame', hloop, fun end_ hend => ?_⟩
      obtain ⟨hgood, hlength, hframe⟩ := hwritten end_ hend
      rw [writtenLabels_eq hempty, encoded_cons]
      refine ⟨?_, ?_, ?_⟩
      · rintro label hlabel
        rcases List.mem_cons.1 hlabel with rfl | hlabel
        · omega
        · exact hgood label hlabel
      · rw [hlength, List.length_cons, List.length_append]
        omega
      · have hone := writeBytes_append frame (42 + destination)
          [UInt8.ofNat (rest.takeWhile (· != period)).length] (rest.takeWhile (· != period))
        rw [List.length_singleton, ← writeByte_eq] at hone
        rw [hframe, hone, show 42 + (destination + 1 + (rest.takeWhile (· != period)).length)
          = 42 + destination + ([UInt8.ofNat (rest.takeWhile (· != period)).length]
            ++ rest.takeWhile (· != period)).length by simp; omega, writeBytes_append]
        rfl

theorem length_le_encoded (labels : List (List UInt8)) :
    labels.length ≤ (encoded labels).length := by
  induction labels with
  | nil => exact Nat.zero_le _
  | cons label labels ih =>
    rw [encoded_cons]
    simp only [List.length_cons, List.length_append]
    omega

/-! ## The frame -/

def queryStart (s : Network) (frame : ℕ → UInt8) (length : ℕ) (destinationMac : Mac)
    (dnsAddress : UInt32) (transactionId : UInt16) (sum : UInt16) : ℕ → UInt8 :=
  queryMessage (writeBe16 (s.queryHeader frame length (length - 14) destinationMac dnsAddress) 24
    sum) (length - 34) transactionId

def queryFrame (start : ℕ → UInt8) (name : List UInt8) : ℕ → UInt8 :=
  let end_ := 54 + (encoded (writtenLabels name)).length
  writeBe16 (writeBe16 (writeByte (writeBytes start 54 (encoded (writtenLabels name))) end_ 0)
    (end_ + 1) 1) (end_ + 1 + 2) 1

section

variable {s : Network} {frame : ℕ → UInt8} {capacity : ℕ} {destinationMac : Mac}
  {dnsAddress : UInt32} {transactionId : UInt16} {hostname : ℕ → UInt8}

variable (s frame capacity destinationMac dnsAddress transactionId hostname) in
theorem buildDnsQuery_cases : ∃ length frame' s',
    s.buildDnsQuery frame capacity destinationMac dnsAddress transactionId hostname
        = some (length, frame', s')
      ∧ (length ≠ 0 → hostnameOf hostname ≠ [] ∧ length = (hostnameOf hostname).length + 60
        ∧ (hostnameOf hostname).length ≤ 253
        ∧ (∀ label ∈ writtenLabels (hostnameOf hostname), 0 < label.length ∧ label.length ≤ 63)
        ∧ ∃ sum, frame' = queryFrame (s.queryStart frame length destinationMac dnsAddress
          transactionId sum) (hostnameOf hostname)) := by
  have hname : (hostnameOf hostname).length = hostnameLength hostname := by simp [hostnameOf]
  unfold buildDnsQuery ethernetHeaderBytes
  dsimp only
  split_ifs with hrefuse
  · exact ⟨0, frame, s, rfl, fun h => absurd rfl h⟩
  simp only [not_or, not_lt] at hrefuse
  obtain ⟨-, -, -, -, hpos, hshort, hroom⟩ := hrefuse
  rw [show (List.range (hostnameLength hostname)).map hostname = hostnameOf hostname from rfl]
  rw [← hname] at hpos hshort hroom ⊢
  have hip : ((packetOf (s.queryHeader frame (14 + (20 + (8 + (12 + (hostnameOf hostname).length + 2
      + 4)))) (20 + (8 + (12 + (hostnameOf hostname).length + 2 + 4))) destinationMac dnsAddress)
      capacity).drop 14).Has _ 20 := ((packetOf_has _ _).drop 14).mono (by omega)
  rw [networkIpv4Checksum_eq hip (by omega) (by omega) (by omega)]
  simp only [Option.bind_eq_bind, Option.bind_some]
  generalize complement _ = sum
  obtain ⟨r, written, hloop, hwritten⟩ := queryLabels_eq ((hostnameOf hostname).length + 1)
    (hostnameOf hostname) 12 (queryMessage (writeBe16 (s.queryHeader frame
      (14 + (20 + (8 + (12 + (hostnameOf hostname).length + 2 + 4))))
      (20 + (8 + (12 + (hostnameOf hostname).length + 2 + 4))) destinationMac dnsAddress) (14 + 10)
      sum) (8 + (12 + (hostnameOf hostname).length + 2 + 4)) transactionId) (Nat.lt_succ_self _)
  rw [hloop, Option.bind_some]
  rcases r with _ | end_
  · exact ⟨0, written, s, rfl, fun h => absurd rfl h⟩
  obtain ⟨hgood, hend, hframe⟩ := hwritten end_ rfl
  refine ⟨_, _, _, rfl, fun _ => ⟨List.length_pos_iff.1 (by omega), by omega, hshort, hgood, sum, ?_⟩⟩
  rw [hframe, hend, queryFrame, queryStart]
  rw [show 14 + (20 + (8 + (12 + (hostnameOf hostname).length + 2 + 4))) - 14
    = 20 + (8 + (12 + (hostnameOf hostname).length + 2 + 4)) by omega,
    show 14 + (20 + (8 + (12 + (hostnameOf hostname).length + 2 + 4))) - 34
    = 8 + (12 + (hostnameOf hostname).length + 2 + 4) by omega,
    show 42 + (12 + (encoded (writtenLabels (hostnameOf hostname))).length)
      = 54 + (encoded (writtenLabels (hostnameOf hostname))).length by omega]

variable {length : ℕ} {sum : UInt16} {name : List UInt8}

variable (s frame destinationMac dnsAddress transactionId length sum name) in
theorem queryFrame_header : be16 (queryFrame (s.queryStart frame length destinationMac dnsAddress
      transactionId sum) name) 16 = UInt16.ofNat (length - 14)
    ∧ be16 (queryFrame (s.queryStart frame length destinationMac dnsAddress
      transactionId sum) name) 38 = UInt16.ofNat (length - 34) := by
  have hstart : ∀ {start : ℕ → UInt8} {a : ℕ}, a < 54 → queryFrame start name a = start a := by
    intro start a ha
    rw [queryFrame, writeBe16_of_ne _ _ (by omega), writeBe16_of_ne _ _ (by omega),
      writeByte_apply, if_neg (by omega)]
    exact if_neg (by omega)
  rw [be16_congr fun k hk => hstart (by omega), be16_congr fun k hk => hstart (by omega)]
  unfold queryStart queryMessage queryHeader
  constructor
  · simp [be16_writeBe32_of_ne, be16_writeBe16_of_ne, be16_writeByte_of_ne, be16_writeBe16]
  · simp [be16_writeBe16_of_ne, be16_writeBe16]

theorem queryFrame_question (start : ℕ → UInt8) (name : List UInt8) :
    (∀ i byte, (encoded (writtenLabels name) ++ [0])[i]? = some byte →
        queryFrame start name (54 + i) = byte)
      ∧ be16 (queryFrame start name) (55 + (encoded (writtenLabels name)).length) = 1
      ∧ be16 (queryFrame start name) (57 + (encoded (writtenLabels name)).length) = 1 := by
  refine ⟨fun i byte hbyte => ?_, ?_, ?_⟩
  · have hlt := (List.getElem?_eq_some_iff.1 hbyte).1
    rw [List.length_append, List.length_singleton] at hlt
    rw [queryFrame, writeBe16_of_ne _ _ (by omega), writeBe16_of_ne _ _ (by omega), writeByte_eq,
      writeBytes_append, writeBytes, if_pos (by simp; omega), Nat.add_sub_cancel_left,
      List.getD_eq_getElem?_getD, hbyte, Option.getD_some]
  · rw [queryFrame, be16_writeBe16_of_ne _ _ (by omega),
      show 55 + (encoded (writtenLabels name)).length
        = 54 + (encoded (writtenLabels name)).length + 1 by omega, be16_writeBe16]
  · rw [queryFrame, show 57 + (encoded (writtenLabels name)).length
      = 54 + (encoded (writtenLabels name)).length + 1 + 2 by omega, be16_writeBe16]

end

def messageOf (frame : ℕ → UInt8) (length : ℕ) : Packet := (packetOf frame length).drop 42

/-- The frame asks for the address of the name: its question is the labels of the name and the two
words behind them, which end the datagram, and the lengths in the headers are those of the frame. -/
structure Asks (frame : ℕ → UInt8) (length : ℕ) (name : List UInt8) : Prop where
  question : ∃ offset,
    readName (messageOf frame length) (length - 42) (length - 42 + 1) 12
        = some (some (name.splitOn period, offset))
      ∧ dnsSkipName (messageOf frame length) (length - 42) (length - 42 + 1) 12 = some offset
      ∧ readBe16 (messageOf frame length) offset = some 1
      ∧ readBe16 (messageOf frame length) (offset + 2) = some 1
      ∧ offset + 4 = length - 42
  ipLength : (be16 frame 16).toNat = length - 14
  udpLength : (be16 frame 38).toNat = length - 34

theorem queryFrame_reads (start : ℕ → UInt8) {name : List UInt8} (hne : name ≠ [])
    (hshort : name.length ≤ 253)
    (hgood : ∀ label ∈ writtenLabels name, 0 < label.length ∧ label.length ≤ 63) :
    let message := messageOf (queryFrame start name) (name.length + 60)
    let offset := 13 + (encoded (writtenLabels name)).length
    readName message (name.length + 18) (name.length + 19) 12
        = some (some (writtenLabels name, offset))
      ∧ readBe16 message offset = some 1 ∧ readBe16 message (offset + 2) = some 1 := by
  intro message offset
  obtain ⟨hbytes, htype, hclass⟩ := queryFrame_question start name
  have hlength := length_encoded _ name le_rfl hne
  have hle : (encoded (writtenLabels name)).length ≤ name.length + 1 := by
    split_ifs at hlength <;> omega
  have hhas : message.Has (behind (queryFrame start name) 42) (name.length + 18) :=
    ((packetOf_has _ _).drop 42).mono (by omega)
  have hcount := length_le_encoded (writtenLabels name)
  refine ⟨?_, ?_, ?_⟩
  · rw [readName_encoded hhas (by omega) (writtenLabels name) hgood (by omega)
      (fun i byte hbyte => by
        rw [behind, show 42 + (12 + i) = 54 + i by omega]
        exact hbytes i byte hbyte) (by omega)]
    refine congrArg (fun end_ => some (some (writtenLabels name, end_))) ?_
    omega
  · rw [readBe16_eq hhas (by omega), ← htype]
    refine congrArg some (be16_congr fun k _ => congrArg (queryFrame start name) ?_)
    omega
  · rw [readBe16_eq hhas (by omega), ← hclass]
    refine congrArg some (be16_congr fun k _ => congrArg (queryFrame start name) ?_)
    omega

/-- A query that is built asks for the address of its name exactly if that does not end in a
period. -/
theorem query_asks_iff (s : Network) (frame : ℕ → UInt8) (capacity : ℕ) (destinationMac : Mac)
    (dnsAddress : UInt32) (transactionId : UInt16) (hostname : ℕ → UInt8) :
    ∃ length frame' s', s.buildDnsQuery frame capacity destinationMac dnsAddress transactionId
        hostname = some (length, frame', s')
      ∧ (length ≠ 0 → (Asks frame' length (hostnameOf hostname)
        ↔ (hostnameOf hostname).getLast? ≠ some period)) := by
  obtain ⟨length, frame', s', hbuilt, hquery⟩ := buildDnsQuery_cases s frame capacity
    destinationMac dnsAddress transactionId hostname
  refine ⟨length, frame', s', hbuilt, fun hlength => ?_⟩
  obtain ⟨hne, rfl, hshort, hgood, sum, rfl⟩ := hquery hlength
  generalize hostnameOf hostname = name at hne hshort hgood ⊢
  obtain ⟨hip, hudp⟩ := queryFrame_header s frame destinationMac dnsAddress transactionId
    (name.length + 60) sum name
  generalize s.queryStart frame (name.length + 60) destinationMac dnsAddress transactionId sum
    = start at hip hudp ⊢
  obtain ⟨hread, htype, hclass⟩ := queryFrame_reads start hne hshort hgood
  have hencoded := length_encoded _ name le_rfl hne
  constructor
  · rintro ⟨⟨offset, hname, -, -, -, hend⟩, -, -⟩ hlast
    obtain ⟨-, rfl⟩ : writtenLabels name = _ ∧ 13 + (encoded (writtenLabels name)).length = offset :=
      by simpa using hread.symm.trans hname
    rw [if_pos hlast] at hencoded
    omega
  · intro hlast
    rw [if_neg hlast] at hencoded
    have hlabels : writtenLabels name = name.splitOn period := by
      rw [writtenLabels, if_neg hne, if_neg hlast]
    refine ⟨⟨13 + (encoded (writtenLabels name)).length, ?_, dnsSkipName_of_readName hread, htype,
      hclass, by omega⟩, ?_, ?_⟩
    · rw [← hlabels]
      exact hread
    · rw [hip]
      simp
      omega
    · rw [hudp]
      simp
      omega

def trailingPeriod (i : ℕ) : UInt8 := [0x61, 0x2E].getD i 0

/-- The question for `a.` ends a byte before the datagram. -/
theorem trailing_period_asks_not :
    ¬∀ (s : Network) (frame : ℕ → UInt8) (capacity : ℕ) (destinationMac : Mac)
      (dnsAddress : UInt32) (transactionId : UInt16) (hostname : ℕ → UInt8) (length : ℕ)
      (frame' : ℕ → UInt8) (s' : Network),
      s.buildDnsQuery frame capacity destinationMac dnsAddress transactionId hostname
          = some (length, frame', s') →
        length ≠ 0 → Asks frame' length (hostnameOf hostname) := by
  intro hall
  have hrun : ((buildDnsQuery { linked with ipv4Address := 1 } (fun _ => 0) 1500 (.replicate 6 0)
      1 1 trailingPeriod).map fun r =>
        (r.1, dnsSkipName (messageOf r.2.1 r.1) (r.1 - 42) (r.1 - 42 + 1) 12))
          = some (62, some 15) := by decide +kernel
  obtain ⟨⟨length, frame', s'⟩, hbuilt, hresult⟩ := Option.map_eq_some_iff.1 hrun
  obtain ⟨rfl, hskip⟩ := Prod.mk.inj hresult
  obtain ⟨⟨offset, -, hoffset, -, -, hend⟩, -, -⟩ :=
    hall _ _ _ _ _ _ _ _ _ _ hbuilt (by decide)
  obtain rfl : (15 : ℕ) = offset := Option.some.inj (hskip.symm.trans hoffset)
  omega

end Network

end DemonOS
