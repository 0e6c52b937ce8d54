import DemonOS.Proofs.DemonX.Atoms
import DemonOS.Proofs.DemonX.Exchanges

/-!
# Atoms round trip up to 16 bytes

A sequence of `InternAtom` and `GetAtomName` requests, or of `XInternAtom` and `XGetAtomName` calls of
several clients, gets answers that agree with each other (`Interning.RoundTrips`) just when no name
of more than 16 bytes is asked for by its atom (`atoms_round_trip_iff`), although names of 32 are
interned (`long_name_lost`).
-/

namespace DemonOS

namespace DemonX

open Interning (Records intern)

abbrev AtomAnswer := Interning.Answer (List UInt8) UInt32

namespace Server

def made (s t : Server) : Bool :=
  (List.range atomLimit).any fun i => (t.atoms i).used && !(s.atoms i).used

theorem made_eq_false {s t : Server} (h : t.atoms = s.atoms) : s.made t = false := by
  simp [made, h]

end Server

/-! ## Requests -/

structure AtomRequest where
  packet : Packet
  names : packet.payload 0 = Opcode.internAtom ∨ packet.payload 0 = Opcode.getAtomName

structure AtomSession where
  server : Server
  answers : List AtomAnswer := []

namespace Server

structure NamesAtom (s : Server) : Prop where
  opcode : s.payload 0 = Opcode.getAtomName
  length : s.incoming.payloadLength.toNat = 8

instance (s : Server) : Decidable s.Admitted :=
  decidable_of_iff ((s.field16 2 ≠ 0 ∧ (s.field16 2).toNat * 4 = s.incoming.payloadLength.toNat)
    ∧ s.mayRequest = true) ⟨fun h => ⟨rfl, h.1, rfl, h.2⟩, fun h => ⟨h.words, h.granted⟩⟩

instance (s : Server) : Decidable s.InternsAtom :=
  decidable_of_iff ((s.field16 4 ≠ 0 ∧ s.field16 4 ≤ 32)
    ∧ s.incoming.payloadLength.toNat = 8 + padded (s.field16 4).toNat)
    ⟨fun h => ⟨h.1, h.2⟩, fun h => ⟨h.length, h.size⟩⟩

def answers (s : Server) (r : Bool × Server) : List AtomAnswer :=
  if ¬s.Admitted then []
  else if s.payload 0 = Opcode.internAtom then
    if s.InternsAtom then
      [.interned s.atomName (!(s.payload 1 != 0)) (s.made r.2) r.2.outgoing.repliedAtom]
    else []
  else if s.incoming.payloadLength.toNat = 8 then
    [.named (s.field32 4) r.2.outgoing.repliedName]
  else []

end Server

namespace AtomSession

/-- The server takes a request. -/
def step (sys : Answers) (t : AtomSession) (e : AtomRequest) : AtomSession :=
  match (t.server.requested e.packet).parseRequest sys with
  | none => t
  | some r => { server := r.2, answers := t.answers ++ (t.server.requested e.packet).answers r }

def start (s : Server) : AtomSession where
  server := { s with atoms := fun _ => {} }

/-- The name of an atom that is asked for has 16 bytes at most. -/
def InRange (t : AtomSession) (e : AtomRequest) : Prop :=
  (t.server.requested e.packet).Admitted → (t.server.requested e.packet).NamesAtom →
    ∀ i, t.server.findAtom (read32 e.packet.payload 4) = some i →
      (t.server.atoms i).length.toNat ≤ 16

/-- The table holds the names that have been asked for. -/
def Holds (t : AtomSession) : Prop :=
  ∃ names, Names t.server.atoms names ∧ Records atomCode names t.answers

end AtomSession

section

variable {names : List (List UInt8)} {answers : List AtomAnswer} {s : Server}

theorem agrees_interned (h : Names s.atoms names) (hrecords : Records atomCode names answers)
    (name : List UInt8) {create made : Bool} (hmade : create = false → made = false) :
    Interning.Agrees 0 answers
      (.interned name create made ((intern atomLimit names name create).1.map atomCode)) :=
  hrecords.agrees_interned (fun _ _ => atomCode_inj) (fun _ => atomCode_ne_zero) h.room name hmade

/-- The name of an atom is right where it has 16 bytes at most. -/
theorem agrees_named_iff (h : Names s.atoms names) (hrecords : Records atomCode names answers)
    {i : ℕ} (hi : i < names.length) : Interning.Agrees 0 answers
        (.named (atomCode i) (if names[i].length ≤ 16 then some names[i] else none))
      ↔ (s.atoms i).length.toNat ≤ 16 := by
  rw [hrecords.agrees_named_iff h.nodup
    (fun j hj => atomCode_inj (hi.trans_le h.room) (hj.trans_le h.room)) hi, (h.held i hi).length]
  by_cases hshort : names[i].length ≤ 16
  · simp [hshort]
  · simp [hshort]

theorem agrees_unnamed (h : Names s.atoms names) (hrecords : Records atomCode names answers)
    {id : UInt32} (hid : s.findAtom id = none) (name : Option (List UInt8)) :
    Interning.Agrees 0 answers (.named id name) := by
  refine hrecords.agrees_unnamed (fun i hi hsame => ?_) name
  rw [hsame, h.findAtom_eq hi] at hid
  cases hid

theorem getAtomName_agrees_iff (h : Names s.atoms names) (hrecords : Records atomCode names answers)
    (id : UInt32) : Interning.Agrees 0 answers (.named id (s.getAtomName id).2.outgoing.repliedName)
      ↔ ∀ i, s.findAtom id = some i → (s.atoms i).length.toNat ≤ 16 := by
  rcases h.findAtom_cases id with ⟨i, hi, rfl⟩ | ⟨hnone, -⟩
  · obtain ⟨-, -, hname, -⟩ := Server.getAtomName_spec h hi
    rw [hname, agrees_named_iff h hrecords hi, h.findAtom_eq hi]
    simp
  · rw [hnone]
    exact iff_of_true (agrees_unnamed h hrecords hnone _) (by simp)

theorem getAtomName_told (h : Names s.atoms names) (id : UInt32) :
    Server.Told s (s.getAtomName id) ∧ (s.getAtomName id).2.atoms = s.atoms := by
  rcases h.findAtom_cases id with ⟨i, hi, rfl⟩ | ⟨hnone, -⟩
  · obtain ⟨htold, hatoms, -, -⟩ := Server.getAtomName_spec h hi
    exact ⟨htold, hatoms⟩
  · rw [Server.getAtomName_unknown hnone]
    exact ⟨Server.refuse_told _ _ _ _, rfl⟩

end

namespace AtomSession

variable {sys : Answers} {t : AtomSession} {e : AtomRequest}

inductive Outcome (sys : Answers) (q : Server) : Prop
  | refused (hanswers : ∀ r, q.answers r = []) (hnames : ¬(q.Admitted ∧ q.NamesAtom))
      {r : Bool × Server} (hparse : q.parseRequest sys = some r) (hatoms : r.2.atoms = q.atoms)
  | interned (hgood : q.InternsAtom) (hnames : ¬(q.Admitted ∧ q.NamesAtom))
      (hparse : q.parseRequest sys = some q.internAtom)
      (hanswers : ∀ r, q.answers r
        = [.interned q.atomName (!(q.payload 1 != 0)) (q.made r.2) r.2.outgoing.repliedAtom])
  | named (hadmitted : q.Admitted) (hnames : q.NamesAtom)
      (hparse : q.parseRequest sys = some (q.getAtomName (q.field32 4)))
      (hanswers : ∀ r, q.answers r = [.named (q.field32 4) r.2.outgoing.repliedName])

theorem internAtom_misfit {q : Server} (h : ¬q.InternsAtom) :
    q.internAtom = q.refuse 2 Opcode.internAtom (q.field16 4).toUInt32 := by
  refine if_pos ?_
  by_contra hgood
  simp only [not_or, not_not, UInt16.not_lt] at hgood
  exact h ⟨⟨hgood.1, hgood.2.1⟩, hgood.2.2⟩

theorem outcome (sys : Answers) (q : Server)
    (hop : q.payload 0 = Opcode.internAtom ∨ q.payload 0 = Opcode.getAtomName) :
    Outcome sys q := by
  have hgrabs : q.payload 0 ≠ Opcode.grabServer ∧ q.payload 0 ≠ Opcode.ungrabServer := by
    rcases hop with hop | hop <;> rw [hop] <;> decide
  by_cases hadmitted : q.Admitted
  swap
  · obtain ⟨code, bad, hparse⟩ := Server.parseRequest_unadmitted sys hadmitted hgrabs.1 hgrabs.2
    exact .refused (fun r => by rw [Server.answers, if_pos hadmitted]) (fun h => hadmitted h.1) hparse
      rfl
  rcases hop with hop | hop
  · have hnot : ¬(q.Admitted ∧ q.NamesAtom) := fun h =>
      absurd (hop.symm.trans h.2.opcode) (by decide)
    have hanswers : ∀ r, q.answers r = if q.InternsAtom then
        [.interned q.atomName (!(q.payload 1 != 0)) (q.made r.2) r.2.outgoing.repliedAtom]
        else [] := fun r => by
      rw [Server.answers, if_neg (not_not.2 hadmitted), if_pos hop]
    by_cases hlength : 8 ≤ q.incoming.payloadLength.toNat
    · have hparse : q.parseRequest sys = some q.internAtom :=
        Server.parseRequest_resource hadmitted 17 rfl hop (decide_eq_true hlength)
      by_cases hgood : q.InternsAtom
      · exact .interned hgood hnot hparse fun r => by rw [hanswers, if_pos hgood]
      · refine .refused (fun r => by rw [hanswers, if_neg hgood]) hnot hparse ?_
        rw [internAtom_misfit hgood]
        rfl
    · obtain ⟨code, bad, hparse⟩ := Server.parseRequest_misfit sys hadmitted 17 rfl hop
        (decide_eq_false hlength)
      refine .refused (fun r => ?_) hnot hparse rfl
      rw [hanswers, if_neg fun hgood => hlength (by rw [hgood.size]; omega)]
  · have hother : q.payload 0 ≠ Opcode.internAtom := fun h => absurd (hop.symm.trans h) (by decide)
    have hanswers : ∀ r, q.answers r = if q.incoming.payloadLength.toNat = 8 then
        [.named (q.field32 4) r.2.outgoing.repliedName] else [] := fun r => by
      rw [Server.answers, if_neg (not_not.2 hadmitted), if_neg hother]
    by_cases hlength : q.incoming.payloadLength.toNat = 8
    · exact .named hadmitted ⟨hop, hlength⟩
        (Server.parseRequest_resource hadmitted 18 rfl hop (decide_eq_true hlength))
        fun r => by rw [hanswers, if_pos hlength]
    · obtain ⟨code, bad, hparse⟩ := Server.parseRequest_misfit sys hadmitted 18 rfl hop
        (decide_eq_false hlength)
      exact .refused (fun r => by rw [hanswers, if_neg hlength]) (fun h => hlength h.2.length) hparse
        rfl

theorem step_holds (sys : Answers) (h : t.Holds) (e : AtomRequest) : (t.step sys e).Holds
    ∧ (Interning.RoundTrips 0 (t.step sys e).answers ↔ Interning.RoundTrips 0 t.answers ∧ t.InRange e) := by
  obtain ⟨names, hnames, hrecords⟩ := h
  have hasked : Names (t.server.requested e.packet).atoms names := hnames
  unfold step InRange
  cases outcome sys (t.server.requested e.packet) e.names with
  | refused hanswers hnot hparse hatoms =>
    rw [hparse]
    dsimp only
    rw [hanswers, List.append_nil]
    refine ⟨⟨names, ?_, hrecords⟩, (and_iff_left fun hadmitted hnamed =>
      absurd ⟨hadmitted, hnamed⟩ hnot).symm⟩
    rw [hatoms]
    exact hnames
  | interned hgood hnot hparse hanswers =>
    obtain ⟨-, hreplied, hnew, honly⟩ := Server.internAtom_spec hasked hgood
    rw [hparse]
    dsimp only
    rw [hanswers, hreplied]
    refine ⟨⟨_, hnew, hrecords.interned _ _ _⟩, ?_⟩
    rw [Interning.roundTrips_concat]
    refine and_congr_right fun _ => iff_of_true (agrees_interned hasked hrecords _ fun hcreate => ?_)
      fun hadmitted hnamed => absurd ⟨hadmitted, hnamed⟩ hnot
    exact Server.made_eq_false (honly (by simpa using hcreate))
  | named hadmitted hnamed hparse hanswers =>
    obtain ⟨-, hatoms⟩ := getAtomName_told hasked ((t.server.requested e.packet).field32 4)
    rw [hparse]
    dsimp only
    rw [hanswers]
    refine ⟨⟨names, ?_, hrecords.congr fun _ _ _ _ heq => by cases heq⟩, ?_⟩
    · dsimp only
      rw [hatoms]
      exact hnames
    · rw [Interning.roundTrips_concat]
      refine and_congr_right fun _ => (getAtomName_agrees_iff hasked hrecords _).trans ?_
      exact ⟨fun hshort _ _ => hshort, fun hshort => hshort hadmitted hnamed⟩

theorem start_holds (s : Server) : (start s).Holds := ⟨[], Names.start, Interning.records_nil _⟩

theorem agree_iff (sys : Answers) (s : Server) (requests : List AtomRequest) :
    (∀ before, before <+: requests →
        Interning.RoundTrips 0 (Machine.run (step sys) (start s) before).answers)
      ↔ Machine.Meets (step sys) InRange (start s) requests := by
  rw [Machine.prefixes_iff (step sys) (I := fun t => Interning.RoundTrips 0 t.answers) requests (start s)
    (Interning.roundTrips_nil 0)]
  refine Machine.meets_congr (step sys) (I := fun t => t.Holds ∧ Interning.RoundTrips 0 t.answers)
    (fun t e ht => ?_) (fun t e ht hkept => ⟨(step_holds sys ht.1 e).1, hkept⟩) requests (start s)
    ⟨start_holds s, Interning.roundTrips_nil 0⟩
  exact (step_holds sys ht.1 e).2.trans (and_iff_right ht.2)

end AtomSession

/-! ## Calls -/

inductive AtomCall where
  | intern (client : UInt32) (name : CString) (onlyIfExists : Bool)
  | getName (client atom : UInt32)

def AtomCall.client : AtomCall → UInt32
  | .intern client _ _ => client
  | .getName client _ => client

structure AtomTalk where
  desktop : Desktop
  answers : List AtomAnswer := []

namespace Desktop

def made (d d' : Desktop) : Bool :=
  match d.server, d'.server with
  | .running s, .running t => s.made t
  | _, _ => false

theorem told_tells {q : Server} {r : Bool × Server} (h : Server.Told q r) : Tells q r where
  sent := h.sent
  client := h.client
  flags := h.flags
  fits := h.fits
  calls := by rw [h.same]
  memory := by rw [h.same]

end Desktop

/-- The request `XInternAtom` sends. -/
structure Interns (p : ℕ → UInt8) (name : List UInt8) (onlyIfExists : Bool) : Prop where
  opcode : p 0 = Opcode.internAtom
  only : (p 1 != 0) = onlyIfExists
  words : read16 p 2 = UInt16.ofNat ((8 + padded name.length) / 4)
  length : read16 p 4 = UInt16.ofNat name.length
  name : ∀ k < name.length, p (8 + k) = name.getD k 0

theorem xInternAtom_interns (name : List UInt8) (onlyIfExists : Bool) :
    Interns (copyBytes (write16 (write16 (write8 (write8 (fun _ => 0) 0 Opcode.internAtom) 1
      (if onlyIfExists then 1 else 0)) 2 (UInt16.ofNat ((8 + padded name.length) / 4))) 4
      (UInt16.ofNat name.length)) 8 (fun k => name.getD k 0) name.length) name onlyIfExists where
  opcode := by
    rw [← read8_eq (copyBytes _ _ _ _) 0, read8, load_copyBytes_of_disjoint _ _ (.inl (by omega)), ← read8]
    simp (disch := omega) only [write8, write16, read8_store_of_disjoint, read8_store_self]
  only := by
    cases onlyIfExists <;> rfl
  words := by
    rw [read16, load_copyBytes_of_disjoint _ _ (.inl (by omega)), ← read16]
    simp (disch := omega) only [write16, read16_store_of_disjoint, read16_store_self]
  length := by
    rw [read16, load_copyBytes_of_disjoint _ _ (.inl (by omega)), ← read16]
    exact read16_write16 _ _ _
  name k hk := by
    unfold copyBytes
    rw [if_pos (by omega), Nat.add_sub_cancel_left]

def Plain (names : List (List UInt8)) : Prop :=
  ∀ name ∈ names, 1 ≤ name.length ∧ name.length ≤ 32 ∧ 0 ∉ name

def calledNames (names : List (List UInt8)) (name : List UInt8) (create : Bool) :
    Option ℕ × List (List UInt8) :=
  if name.length = 0 ∨ 32 < name.length then (none, names)
  else intern atomLimit names name create

theorem cString_eq {buffer : ℕ → UInt8} {size a : ℕ} {text : List UInt8}
    (hsize : a + text.length < size) (htext : nameBytes (fun k => buffer (a + k)) text.length = text)
    (hend : buffer (a + text.length) = 0) (hnul : 0 ∉ text) : cString buffer size a = text := by
  obtain ⟨rest, hrest⟩ : ∃ rest, size - a = text.length + (rest + 1) :=
    ⟨size - a - text.length - 1, by omega⟩
  change (List.range text.length).map (fun k => buffer (a + k)) = text at htext
  unfold cString
  rw [hrest, List.range_add, List.map_append, htext, List.takeWhile_append_of_pos]
  · rw [List.range_succ_eq_map, List.map_cons, List.map_cons,
      List.takeWhile_cons_of_neg (by simp [hend]), List.append_nil]
  · intro x hx
    exact decide_eq_true fun hzero => hnul (hzero ▸ hx)

theorem cString_name {f : ℕ → UInt8} {n size : ℕ} (hsize : n < size) (hnul : 0 ∉ nameBytes f n) :
    cString (fun k => if k < n then f k else 0) size 0 = nameBytes f n := by
  refine cString_eq (by simpa using hsize) ?_ (by simp) hnul
  rw [length_nameBytes]
  refine nameBytes_inj.2 fun k hk => ?_
  rw [Nat.zero_add, if_pos hk]

namespace Desktop

variable {d : Desktop} {s : Server} {sys : Answers} {client : UInt32}
  {names : List (List UInt8)}

theorem Answered.atom {t : Server} {d' : Desktop} (h : d.Answered client t d')
    (hhead : 32 ≤ t.outgoing.payloadLength.toNat) :
    ((d'.replied client).map fun p => read32 p 8).getD 0 = t.outgoing.repliedAtom.getD 0 := by
  rw [h.replied_eq, Packet.repliedAtom]
  by_cases hflags : t.outgoing.flags = flagReply
  · rw [if_pos hflags, Option.map_some, Option.getD_some, h.field32 (by omega)]
    by_cases hzero : read32 t.outgoing.payload 8 = 0
    · rw [if_neg fun h => h.2 hzero, hzero]
      rfl
    · rw [if_pos ⟨hflags, hzero⟩, Option.getD_some]
  · rw [if_neg hflags, if_neg fun h => hflags h.1]
    rfl

theorem xInternAtom_asked (hsys : Server.Delivers sys) (hrun : d.Runs s)
    (hready : d.Ready s client) (name : CString) (onlyIfExists : Bool)
    (hlength : ¬(name.bytes.length = 0 ∨ 32 < name.bytes.length)) :
    ∃ p q d', s.Has p q ∧ q.InternsAtom ∧ q.atomName = name.bytes
      ∧ (q.payload 1 != 0) = onlyIfExists
      ∧ d.xInternAtom sys client name onlyIfExists
        = some (q.internAtom.2.outgoing.repliedAtom.getD 0, d')
      ∧ d.Answered client q.internAtom.2 d' := by
  unfold xInternAtom
  dsimp only
  rw [if_neg hlength]
  push Not at hlength
  have hpadded : padded name.bytes.length % 4 = 0 ∧ name.bytes.length ≤ padded name.bytes.length
      ∧ padded name.bytes.length ≤ 32 := by
    unfold padded
    omega
  have hfits : 8 + padded name.bytes.length ≤ payloadBytes := by
    unfold payloadBytes
    omega
  have hinterns := xInternAtom_interns name.bytes onlyIfExists
  generalize copyBytes _ _ _ _ = payload at hinterns ⊢
  obtain ⟨q, hhas, hanswer⟩ := request_answered payload hsys hrun hready hfits
  have hsize : (d.packet client (8 + padded name.bytes.length) payload).payloadLength.toNat
      = 8 + padded name.bytes.length := packet_length hfits
  have hadmitted : q.Admitted := hhas.admitted (by rw [hsize]; exact hinterns.words) (by omega)
    (by omega) hready.free
  have hfield : q.field16 4 = UInt16.ofNat name.bytes.length :=
    (hhas.field16 (by omega)).trans hinterns.length
  have hnat : (q.field16 4).toNat = name.bytes.length := by
    rw [hfield]
    exact UInt16.toNat_ofNat_of_lt' (show name.bytes.length < 2 ^ 16 by omega)
  have hqlength := hhas.carries.length
  have hgood : q.InternsAtom := by
    refine ⟨⟨fun hzero => hlength.1 ?_, ?_⟩, ?_⟩
    · rw [← hnat, hzero]
      rfl
    · rw [UInt16.le_iff_toNat_le, hnat]
      exact hlength.2
    · rw [hnat]
      omega
  have hparse : q.parseRequest sys = some q.internAtom :=
    Server.parseRequest_resource hadmitted 17 rfl
      ((hhas.payload (by omega)).trans hinterns.opcode) (decide_eq_true (by omega))
  have hname : q.atomName = name.bytes := by
    unfold Server.atomName
    rw [hnat]
    refine List.ext_getElem (by simp) fun k hk hk' => ?_
    simp only [nameBytes, List.getElem_map, List.getElem_range]
    rw [hhas.payload (by omega)]
    exact (hinterns.name k hk').trans (by simp [List.getD, hk'])
  have honly : (q.payload 1 != 0) = onlyIfExists := by
    rw [hhas.payload (by omega)]
    exact hinterns.only
  have htold := (Server.internAtom_made hgood).1
  obtain ⟨d', hrequest, hanswered⟩ := hanswer _ hparse (told_tells htold)
  refine ⟨_, q, d', hhas, hgood, hname, honly, ?_, hanswered⟩
  rw [hrequest, Option.map_some, hanswered.atom htold.head]

theorem xInternAtom_spec (hsys : Server.Delivers sys) (hrun : d.Runs s)
    (hready : d.Ready s client) (hnames : Names s.atoms names) (name : CString)
    (onlyIfExists : Bool) : ∃ d' t, d.Continues s d' t
      ∧ d.xInternAtom sys client name onlyIfExists
        = some ((((calledNames names name.bytes !onlyIfExists).1.map atomCode).getD 0), d')
      ∧ Names t.atoms (calledNames names name.bytes !onlyIfExists).2
      ∧ (onlyIfExists = true → t.atoms = s.atoms) := by
  unfold calledNames
  by_cases hlength : name.bytes.length = 0 ∨ 32 < name.bytes.length
  · rw [if_pos hlength]
    exact ⟨d, s, ⟨hrun, rfl, rfl, rfl⟩, if_pos hlength, hnames, fun _ => rfl⟩
  rw [if_neg hlength]
  obtain ⟨p, q, d', hhas, hgood, hname, honly, hcall, hanswered⟩ :=
    xInternAtom_asked hsys hrun hready name onlyIfExists hlength
  have hqnames : Names q.atoms names := by
    rw [hhas.same]
    exact hnames
  obtain ⟨htold, hreplied, hnew, hkept⟩ := Server.internAtom_spec hqnames hgood
  rw [hname, honly] at hreplied hnew
  refine ⟨d', _, hanswered.continues hhas ?_ ?_ ?_, hreplied ▸ hcall, hnew, fun hyes => ?_⟩
  · rw [htold.same]
  · rw [htold.same]
  · rw [htold.same]
  · rw [honly] at hkept
    change q.internAtom.2.atoms = s.atoms
    rw [hkept hyes, hhas.same]

theorem Answered.name {t : Server} {d' : Desktop} (h : d.Answered client t d')
    (hhead : 32 ≤ t.outgoing.payloadLength.toNat)
    (hname : ∀ name, t.outgoing.repliedName = some name →
      name.length ≤ 16 ∧ 0 ∉ name ∧ 32 + name.length ≤ t.outgoing.payloadLength.toNat) :
    ((d'.replied client).bind fun p =>
      if 16 < (read16 p 8).toNat then none
      else some (cString (fun k => if k < (read16 p 8).toNat then p (32 + k) else 0) 17 0))
      = t.outgoing.repliedName := by
  rw [h.replied_eq]
  unfold Packet.repliedName at hname ⊢
  by_cases hflags : t.outgoing.flags = flagReply
  · rw [if_pos hflags] at hname ⊢
    rw [if_pos hflags, Option.bind_some, h.field16 (by omega)]
    obtain ⟨hshort, hnul, hroom⟩ := hname _ rfl
    rw [length_nameBytes] at hshort hroom
    have hbytes : nameBytes (fun k => (d'.display client).packet.payload (32 + k))
        (read16 t.outgoing.payload 8).toNat
        = nameBytes (fun k => t.outgoing.payload (32 + k)) (read16 t.outgoing.payload 8).toNat :=
      nameBytes_inj.2 fun k hk => h.packet.bytes (32 + k) (by omega)
    rw [if_neg (by omega), cString_name (by omega) (by rwa [hbytes]), hbytes]
  · rw [if_neg hflags, if_neg hflags]
    rfl

theorem xGetAtomName_spec (hsys : Server.Delivers sys) (hrun : d.Runs s)
    (hready : d.Ready s client) (hnames : Names s.atoms names) (hplain : Plain names)
    (atom : UInt32) : ∃ d' t name, d.Continues s d' t
      ∧ d.xGetAtomName sys client atom = some (name, d') ∧ t.atoms = s.atoms
      ∧ (∀ i (hi : i < names.length), atom = atomCode i →
        name = if names[i].length ≤ 16 then some names[i] else none) := by
  have hopcode := requestHead_opcode Opcode.getAtomName 0 8 atom
  have hwords := requestHead_words Opcode.getAtomName 0 8 atom
  have hid := requestHead_id Opcode.getAtomName 0 8 atom
  unfold xGetAtomName
  generalize requestHead Opcode.getAtomName 0 8 atom = payload at hopcode hwords hid ⊢
  have hfits : 8 ≤ payloadBytes := by decide
  obtain ⟨q, hhas, hanswer⟩ := request_answered payload hsys hrun hready hfits
  have hsize : (d.packet client 8 payload).payloadLength.toNat = 8 := packet_length hfits
  have hadmitted : q.Admitted := hhas.admitted (by rw [hsize]; exact hwords) (by omega) (by omega)
    hready.free
  have hfield : q.field32 4 = atom := (hhas.field32 (by omega)).trans hid
  have hparse : q.parseRequest sys = some (q.getAtomName atom) := by
    rw [← hfield]
    exact Server.parseRequest_resource hadmitted 18 rfl ((hhas.payload (by omega)).trans hopcode)
      (decide_eq_true (hhas.carries.length ▸ hsize))
  have hqnames : Names q.atoms names := by
    rw [hhas.same]
    exact hnames
  obtain ⟨htold, hatoms⟩ := getAtomName_told hqnames atom
  obtain ⟨d', hrequest, hanswered⟩ := hanswer _ hparse (told_tells htold)
  refine ⟨d', _, (d'.replied client).bind fun p =>
    if 16 < (read16 p 8).toNat then none
    else some (cString (fun k => if k < (read16 p 8).toNat then p (32 + k) else 0) 17 0),
    hanswered.continues hhas ?_ ?_ ?_, ?_, ?_, ?_⟩
  · rw [htold.same]
  · rw [htold.same]
  · rw [htold.same]
  · rw [hrequest]
    rfl
  · exact hatoms.trans (by rw [hhas.same])
  · rintro i hi rfl
    obtain ⟨-, -, hreplied, hroom⟩ := Server.getAtomName_spec hqnames hi
    rw [← hreplied]
    refine hanswered.name htold.head fun name hname => ?_
    rw [hreplied] at hname
    split_ifs at hname with hshort
    obtain rfl := Option.some.inj hname
    exact ⟨hshort, (hplain _ (List.getElem_mem hi)).2.2, hroom hshort⟩

end Desktop

namespace AtomTalk

/-- A client calls the library. -/
def step (sys : Answers) (t : AtomTalk) : AtomCall → AtomTalk
  | .intern client name onlyIfExists =>
    match t.desktop.xInternAtom sys client name onlyIfExists with
    | none => t
    | some (atom, d) =>
      { desktop := d, answers := t.answers ++ [.interned name.bytes (!onlyIfExists)
          (t.desktop.made d) (if atom = 0 then none else some atom)] }
  | .getName client atom =>
    match t.desktop.xGetAtomName sys client atom with
    | none => t
    | some (name, d) => { desktop := d, answers := t.answers ++ [.named atom name] }

def start (d : Desktop) (s : Server) : AtomTalk where
  desktop := { d with server := .running { s with atoms := fun _ => {} } }

/-- The name of an atom that is asked for has 16 bytes at most. -/
def InRange (t : AtomTalk) : AtomCall → Prop
  | .intern _ _ _ => True
  | .getName _ atom => ∀ s, t.desktop.server = .running s → ∀ i, s.findAtom atom = some i →
      (s.atoms i).length.toNat ≤ 16

/-- The table holds the names of the calls, and the clients can go on. -/
structure Linked (clients : UInt32 → Prop) (t : AtomTalk) (s : Server) (names : List (List UInt8)) :
    Prop where
  runs : t.desktop.Runs s
  ready : ∀ client, clients client → t.desktop.Ready s client
  held : Names s.atoms names
  plain : Plain names
  records : Records atomCode names t.answers

def Holds (clients : UInt32 → Prop) (t : AtomTalk) : Prop := ∃ s names, t.Linked clients s names

variable {sys : Answers} {t : AtomTalk} {clients : UInt32 → Prop}

theorem interned_holds (hsys : Server.Delivers sys) (h : t.Holds clients) {client : UInt32}
    (hclient : clients client) (name : CString) (onlyIfExists : Bool) :
    (t.step sys (.intern client name onlyIfExists)).Holds clients
      ∧ (t.step sys (.intern client name onlyIfExists)).answers.length = t.answers.length + 1
      ∧ (Interning.RoundTrips 0 (t.step sys (.intern client name onlyIfExists)).answers
        ↔ Interning.RoundTrips 0 t.answers) := by
  obtain ⟨s, names, hruns, hready, hnames, hplain, hrecords⟩ := h
  obtain ⟨d', t', hgoes, hcall, hnew, honly⟩ := Desktop.xInternAtom_spec hsys hruns
    (hready client hclient) hnames name onlyIfExists
  have hmade : t.desktop.made d' = s.made t' := by
    unfold Desktop.made
    rw [hruns.running, hgoes.runs.running]
  have hquiet : (!onlyIfExists) = false → s.made t' = false := fun hcreate =>
    Server.made_eq_false (honly (by simpa using hcreate))
  unfold step
  dsimp only
  rw [hcall]
  dsimp only
  rw [hmade, Interning.roundTrips_concat]
  unfold calledNames at hnew ⊢
  by_cases hlength : name.bytes.length = 0 ∨ 32 < name.bytes.length
  · have hunknown : name.bytes ∉ names := fun hmem => by
      obtain ⟨hpos, hle, -⟩ := hplain _ hmem
      omega
    rw [if_pos hlength] at hnew ⊢
    refine ⟨⟨t', names, hgoes.runs, fun c hc => hgoes.ready (hready c hc), hnew, hplain,
      hrecords.congr fun _ _ _ _ heq => by cases heq⟩, by simp, and_iff_left ⟨?_, ?_, hquiet⟩⟩
    · intro create made a hmem
      exact absurd (hrecords.known hmem).1 hunknown
    · intro a ha
      cases ha
  · have hid : (if ((intern atomLimit names name.bytes !onlyIfExists).1.map atomCode).getD 0 = 0
        then none else some (((intern atomLimit names name.bytes !onlyIfExists).1.map atomCode).getD 0))
        = (intern atomLimit names name.bytes !onlyIfExists).1.map atomCode := by
      rcases hnone : (intern atomLimit names name.bytes !onlyIfExists).1.map atomCode with _ | a
      · simp
      · have hne := ((agrees_interned hnames hrecords name.bytes hquiet).2.1 a hnone).1
        simp [hne]
    rw [if_neg hlength] at hnew ⊢
    rw [hid]
    refine ⟨⟨t', _, hgoes.runs, fun c hc => hgoes.ready (hready c hc), hnew, ?_,
      hrecords.interned _ _ _⟩, by simp,
      and_iff_left (agrees_interned hnames hrecords _ hquiet)⟩
    push Not at hlength
    intro k hk
    unfold intern at hk
    split_ifs at hk
    · exact hplain k hk
    · rcases List.mem_append.1 hk with hold | hlast
      · exact hplain k hold
      · obtain rfl := List.mem_singleton.1 hlast
        exact ⟨Nat.pos_of_ne_zero hlength.1, hlength.2, name.noNul⟩
    · exact hplain k hk

theorem named_holds (hsys : Server.Delivers sys) (h : t.Holds clients) {client : UInt32}
    (hclient : clients client) (atom : UInt32) :
    (t.step sys (.getName client atom)).Holds clients
      ∧ (t.step sys (.getName client atom)).answers.length = t.answers.length + 1
      ∧ (Interning.RoundTrips 0 (t.step sys (.getName client atom)).answers
        ↔ Interning.RoundTrips 0 t.answers ∧ t.InRange (.getName client atom)) := by
  obtain ⟨s, names, hruns, hready, hnames, hplain, hrecords⟩ := h
  obtain ⟨d', t', name, hgoes, hcall, hsame, hname⟩ := Desktop.xGetAtomName_spec hsys hruns
    (hready client hclient) hnames hplain atom
  have hrange : t.InRange (.getName client atom)
      ↔ ∀ i, s.findAtom atom = some i → (s.atoms i).length.toNat ≤ 16 := by
    refine ⟨fun hin => hin s hruns.running, fun hin s' hs' => ?_⟩
    cases hruns.running.symm.trans hs'
    exact hin
  rw [hrange]
  unfold step
  dsimp only
  rw [hcall]
  rw [Interning.roundTrips_concat]
  refine ⟨⟨t', names, hgoes.runs, fun c hc => hgoes.ready (hready c hc), hsame ▸ hnames, hplain,
    hrecords.congr fun _ _ _ _ heq => by cases heq⟩, by simp, and_congr_right fun _ => ?_⟩
  rcases hnames.findAtom_cases atom with ⟨i, hi, rfl⟩ | ⟨hnone, -⟩
  · rw [hname i hi rfl, agrees_named_iff hnames hrecords hi, hnames.findAtom_eq hi]
    simp
  · rw [hnone]
    exact iff_of_true (agrees_unnamed hnames hrecords hnone _) (by simp)

theorem step_holds (hsys : Server.Delivers sys) (h : t.Holds clients) {call : AtomCall}
    (hclient : clients call.client) : (t.step sys call).Holds clients
      ∧ (t.step sys call).answers.length = t.answers.length + 1
      ∧ (Interning.RoundTrips 0 (t.step sys call).answers
        ↔ Interning.RoundTrips 0 t.answers ∧ t.InRange call) := by
  rcases call with ⟨client, name, onlyIfExists⟩ | ⟨client, atom⟩
  · obtain ⟨hholds, hlength, hagree⟩ := interned_holds hsys h hclient name onlyIfExists
    exact ⟨hholds, hlength, hagree.trans (and_iff_left trivial).symm⟩
  · exact named_holds hsys h hclient atom

abbrev Call (clients : UInt32 → Prop) := { call : AtomCall // clients call.client }

def call (sys : Answers) (t : AtomTalk) (c : Call clients) : AtomTalk := t.step sys c.1

theorem start_holds {d : Desktop} {s : Server} (hwhole : s.assembly.active = false)
    (hready : ∀ client, clients client → d.Ready s client) : (start d s).Holds clients := by
  refine ⟨{ s with atoms := fun _ => {} }, [], ⟨rfl, hwhole⟩, fun client hclient => ?_, Names.start,
    fun name h => absurd h (by simp), Interning.records_nil _⟩
  obtain ⟨⟨hslot, hhandle⟩, hfree, hquiet⟩ := hready client hclient
  exact ⟨⟨hslot, hhandle⟩, hfree, hquiet⟩

theorem run_returns (hsys : Server.Delivers sys) : ∀ (calls : List (Call clients)) (t : AtomTalk),
    t.Holds clients →
      (Machine.run (call sys) t calls).answers.length = t.answers.length + calls.length
  | [], _, _ => rfl
  | c :: calls, t, h => by
    obtain ⟨hholds, hlength, -⟩ := step_holds hsys h c.2
    rw [Machine.run_cons, run_returns hsys calls (call sys t c) hholds, List.length_cons]
    change (t.step sys c.1).answers.length + _ = _
    omega

theorem agree_iff (hsys : Server.Delivers sys) (h : t.Holds clients)
    (hagrees : Interning.RoundTrips 0 t.answers) (calls : List (Call clients)) :
    (∀ before, before <+: calls → Interning.RoundTrips 0 (Machine.run (call sys) t before).answers)
      ↔ Machine.Meets (call sys) (fun t c => t.InRange c.1) t calls := by
  rw [Machine.prefixes_iff (call sys) (I := fun t => Interning.RoundTrips 0 t.answers) calls t hagrees]
  refine Machine.meets_congr (call sys)
    (I := fun t => t.Holds clients ∧ Interning.RoundTrips 0 t.answers) (fun t c ht => ?_)
    (fun t c ht hkept => ⟨(step_holds hsys ht.1 c.2).1, hkept⟩) calls t ⟨h, hagrees⟩
  exact (step_holds hsys ht.1 c.2).2.2.trans (and_iff_right ht.2)

end AtomTalk

/-- The answers about atoms agree just when no atom is asked for whose name has more than 16 bytes:
those of the server to requests, and those of the library to calls of clients that are connected. -/
theorem atoms_round_trip_iff (sys : Answers) (s : Server) (requests : List AtomRequest) :
    ((∀ before, before <+: requests → Interning.RoundTrips 0
        (Machine.run (AtomSession.step sys) (AtomSession.start s) before).answers)
      ↔ Machine.Meets (AtomSession.step sys) AtomSession.InRange (AtomSession.start s) requests)
    ∧ ∀ (clients : UInt32 → Prop) (calls : List (AtomTalk.Call clients)) (d : Desktop),
      Server.Delivers sys → s.assembly.active = false →
      (∀ client, clients client → d.Ready s client) →
      (∀ before, before <+: calls → (Machine.run (AtomTalk.call sys) (AtomTalk.start d s)
          before).answers.length = before.length)
      ∧ ((∀ before, before <+: calls → Interning.RoundTrips 0
          (Machine.run (AtomTalk.call sys) (AtomTalk.start d s) before).answers)
        ↔ Machine.Meets (AtomTalk.call sys) (fun t c => t.InRange c.1) (AtomTalk.start d s) calls) := by
  refine ⟨AtomSession.agree_iff sys s requests, fun clients calls d hsys hwhole hready => ?_⟩
  have hstart := AtomTalk.start_holds (d := d) hwhole hready
  refine ⟨fun before _ => ?_, AtomTalk.agree_iff hsys hstart (Interning.roundTrips_nil 0) calls⟩
  rw [AtomTalk.run_returns hsys before _ hstart]
  exact Nat.zero_add _

def taking : Answers := fun _ => 64

def connected : Server := Server.setReplyHandle (Server.setReplyHandle {} 0 1) 1 2

def quiet (s : Server) : Desktop where
  server := .running s
  display := fun _ => {}
  replies := fun _ => []

def nameA : CString where
  bytes := [65]
  noNul := by decide

def internTwice : List (AtomTalk.Call fun client => client = 1 ∨ client = 2) :=
  [⟨.intern 1 nameA false, .inl rfl⟩, ⟨.intern 2 nameA true, .inr rfl⟩]

theorem quiet_ready (client : UInt32) (h : client = 1 ∨ client = 2) :
    (quiet connected).Ready connected client := by
  refine ⟨⟨?_, ?_⟩, .inl rfl, rfl⟩
  · rcases h with rfl | rfl <;> decide
  · rcases h with rfl | rfl <;> decide +kernel

theorem atoms_round_trip_twice : ∀ before, before <+: internTwice → Interning.RoundTrips 0
    (Machine.run (AtomTalk.call taking) (AtomTalk.start (quiet connected) connected) before).answers :=
  ((atoms_round_trip_iff taking connected []).2 _ internTwice (quiet connected)
    (fun _ _ _ => rfl) rfl quiet_ready).2.2 ⟨trivial, trivial, trivial⟩

/-! ## A long name -/

def longName : List AtomRequest :=
  [ { packet :=
        { clientId := 1, payloadLength := 28
          payload := copyBytes (write16 (write16 (write8 (fun _ => 0) 0 Opcode.internAtom) 2 7) 4 17)
            8 (fun _ => 65) 17 }
      names := by decide +kernel },
    { packet :=
        { clientId := 1, payloadLength := 8
          payload := requestHead Opcode.getAtomName 0 8 (atomCode 0) }
      names := by decide +kernel }]

theorem long_name_lost : ¬Interning.RoundTrips 0
    (Machine.run (AtomSession.step taking) (AtomSession.start connected) longName).answers := by
  intro h
  have hlast := h [.interned (List.replicate 17 65) true true (some (atomCode 0))]
    (.named (atomCode 0) none) List.prefix_rfl _ _ _ (List.mem_singleton_self _)
  cases hlast

end DemonX

end DemonOS
