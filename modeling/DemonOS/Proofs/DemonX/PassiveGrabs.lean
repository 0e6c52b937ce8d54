import DemonOS.Proofs.DemonX.GrabTable

/-!
# Passive grabs are unique where no hole comes before them

`GrabKey` and `GrabButton` look for the grab they ask for and for a free slot in one scan, and take
what comes first. The passive grabs stay unique, and those of other clients are respected, just when
no free slot stands before a grab that is asked for again (`passiveGrabs_unique_iff`).
-/

namespace DemonOS

namespace DemonX

def PassiveGrab.key (g : PassiveGrab) : UInt8 × UInt8 × UInt32 × UInt32 :=
  (g.kind, g.detail, g.modifiers, g.window)

namespace Server

def UniqueGrabs (s : Server) : Prop :=
  ∀ i j, i < passiveGrabLimit → j < passiveGrabLimit → (s.passiveGrabs i).used = true →
    (s.passiveGrabs j).used = true → (s.passiveGrabs i).key = (s.passiveGrabs j).key → i = j

def grabKeyOf (s : Server) : UInt8 × UInt8 × UInt32 × UInt32 :=
  (if s.payload 0 = Opcode.grabKey ∨ s.payload 0 = Opcode.ungrabKey then 1 else 2, s.payload 1,
    s.field32 8, s.field32 4)

def HoldsGrab (s : Server) (j : ℕ) : Prop :=
  j < passiveGrabLimit ∧ (s.passiveGrabs j).used = true ∧ (s.passiveGrabs j).key = s.grabKeyOf

/-- No free slot comes before the grab that is asked for. -/
def NoHole (s : Server) : Prop :=
  ∀ j, s.HoldsGrab j → ∀ i < j, (s.passiveGrabs i).used = true

variable {s t : Server}

theorem UniqueGrabs.sheds (h : s.UniqueGrabs) (hst : Sheds s t) : t.UniqueGrabs := by
  intro i j hi hj hused hused' hkey
  rw [hst.kept i hused, hst.kept j hused'] at hkey
  exact h i j hi hj (hst.kept i hused ▸ hused) (hst.kept j hused' ▸ hused') hkey

/-- Where the scan for the grab that is asked for stops. -/
def slotFor (s : Server) : Option ℕ :=
  s.passiveSlot (if s.payload 0 = Opcode.grabKey ∨ s.payload 0 = Opcode.ungrabKey then 1 else 2)
    (s.payload 1) (s.field32 8) (s.field32 4)

theorem slotFor_some {i : ℕ} (h : s.slotFor = some i) : i < passiveGrabLimit
      ∧ ((s.passiveGrabs i).used = false ∨ s.HoldsGrab i)
      ∧ ∀ k < i, (s.passiveGrabs k).used = true ∧ ¬s.HoldsGrab k := by
  obtain ⟨hi, hstop, hgo⟩ := Table.firstIndex_eq_some.1 h
  refine ⟨hi, ?_, fun k hk => ?_⟩
  · by_cases hused : (s.passiveGrabs i).used = true
    · refine .inr ⟨hi, hused, ?_⟩
      simpa [hused, PassiveGrab.key, grabKeyOf, Prod.ext_iff] using hstop
    · exact .inl (by simpa using hused)
  · have hpass := hgo k hk
    simp only [decide_eq_false_iff_not, not_or, Bool.not_eq_true', Bool.not_eq_false] at hpass
    refine ⟨by simpa using hpass.1, fun hholds => hpass.2 ?_⟩
    simpa [PassiveGrab.key, grabKeyOf, Prod.ext_iff] using hholds.2.2

theorem slotFor_none (h : s.slotFor = none) (j : ℕ) : ¬s.HoldsGrab j := by
  rintro ⟨hj, -, hkey⟩
  have hpass := Table.firstIndex_eq_none.1 h j hj
  simp only [decide_eq_false_iff_not, not_or] at hpass
  exact hpass.2 (by simpa [PassiveGrab.key, grabKeyOf, Prod.ext_iff] using hkey)

theorem passiveGrab_eq (h : s.GrabsPassive) :
    (s.slotFor = none →
      s.passiveGrab (s.payload 0) (s.field32 4) = s.refuse 11 (s.payload 0) (s.field32 4))
    ∧ ∀ i, s.slotFor = some i → s.passiveGrab (s.payload 0) (s.field32 4)
      = if (s.passiveGrabs i).used then
          if (s.passiveGrabs i).client = s.incoming.clientId then (false, s)
          else s.refuse 10 (s.payload 0) (s.field32 4)
        else (false, s.setPassiveGrab i
          { window := s.grabKeyOf.2.2.2, client := s.incoming.clientId
            modifiers := s.grabKeyOf.2.2.1, eventMask := s.field32 12
            detail := s.grabKeyOf.2.1, kind := s.grabKeyOf.1, used := true }) := by
  have hgrab : ¬(s.payload 0 = Opcode.ungrabKey ∨ s.payload 0 = Opcode.ungrabButton) := by
    rcases h.opcode with hop | hop <;> rw [hop] <;> decide
  unfold passiveGrab
  dsimp only
  rw [if_neg h.window, if_neg hgrab]
  constructor
  · intro hslot
    unfold slotFor at hslot
    rw [hslot]
  · intro i hslot
    unfold slotFor at hslot
    rw [hslot]
    rfl

theorem passiveGrab_cases (h : s.GrabsPassive) :
    (∃ i, s.HoldsGrab i ∧ (∀ k < i, (s.passiveGrabs k).used = true ∧ ¬s.HoldsGrab k)
      ∧ s.passiveGrab (s.payload 0) (s.field32 4)
        = if (s.passiveGrabs i).client = s.incoming.clientId then (false, s)
          else s.refuse 10 (s.payload 0) (s.field32 4))
    ∨ ((∀ j, ¬s.HoldsGrab j)
      ∧ s.passiveGrab (s.payload 0) (s.field32 4) = s.refuse 11 (s.payload 0) (s.field32 4))
    ∨ ∃ i g, i < passiveGrabLimit ∧ (s.passiveGrabs i).used = false
      ∧ (∀ k < i, (s.passiveGrabs k).used = true ∧ ¬s.HoldsGrab k) ∧ g.used = true
      ∧ g.key = s.grabKeyOf
      ∧ s.passiveGrab (s.payload 0) (s.field32 4) = (false, s.setPassiveGrab i g) := by
  obtain ⟨hnone, hsome⟩ := passiveGrab_eq h
  rcases hslot : s.slotFor with _ | i
  · exact .inr (.inl ⟨slotFor_none hslot, hnone hslot⟩)
  · obtain ⟨hi, hstop, hbefore⟩ := slotFor_some hslot
    rw [hsome i hslot]
    rcases hstop with hfree | hholds
    · refine .inr (.inr ⟨i, _, hi, hfree, hbefore, ?_, ?_, if_neg (by rw [hfree]; decide)⟩)
      · rfl
      · rfl
    · exact .inl ⟨i, hholds, hbefore, if_pos hholds.2.1⟩

/-! ## One request -/

theorem setPassiveGrab_self (s : Server) (i : ℕ) (g : PassiveGrab) :
    (s.setPassiveGrab i g).passiveGrabs i = g := Function.update_self _ _ _

theorem setPassiveGrab_ne (s : Server) {i j : ℕ} (g : PassiveGrab) (h : j ≠ i) :
    (s.setPassiveGrab i g).passiveGrabs j = s.passiveGrabs j := Function.update_of_ne h _ _

/-- A grab that is put into a free slot is the only one of its kind where none is there. -/
theorem setPassiveGrab_unique (hunique : s.UniqueGrabs) {i : ℕ} {g : PassiveGrab}
    (hkey : g.key = s.grabKeyOf) (hnone : ∀ j, ¬s.HoldsGrab j) :
    (s.setPassiveGrab i g).UniqueGrabs := by
  have hnew : ∀ j, j < passiveGrabLimit → j ≠ i → (s.passiveGrabs j).used = true →
      g.key ≠ (s.passiveGrabs j).key := fun j hj _ hused hsame =>
    hnone j ⟨hj, hused, hsame.symm.trans hkey⟩
  intro j k hj hk hused hused' hsame
  by_cases hji : j = i
  · by_cases hki : k = i
    · rw [hji, hki]
    · rw [setPassiveGrab_ne s g hki] at hused' hsame
      rw [hji, setPassiveGrab_self] at hsame
      exact absurd hsame (hnew k hk hki hused')
  · rw [setPassiveGrab_ne s g hji] at hused hsame
    by_cases hki : k = i
    · rw [hki, setPassiveGrab_self] at hsame
      exact absurd hsame.symm (hnew j hj hji hused)
    · rw [setPassiveGrab_ne s g hki] at hused' hsame
      exact hunique j k hj hk hused hused' hsame

theorem passiveGrab_unique_iff (sys : Answers) (h : s.GrabsPassive) (hunique : s.UniqueGrabs) :
    (answer sys (s.passiveGrab (s.payload 0) (s.field32 4))).UniqueGrabs ↔ s.NoHole := by
  have hrefused : ∀ code, (answer sys (s.refuse code (s.payload 0) (s.field32 4))).UniqueGrabs :=
    fun code => hunique.sheds
      ((refuse_beside (P := fun _ => True) s _ _ _).toSheds.trans (answer_sheds sys _))
  rcases passiveGrab_cases h with ⟨i, hholds, hbefore, heq⟩ | ⟨hnone, heq⟩
    | ⟨i, g, hi, hfree, hbefore, hused, hkey, heq⟩
  · rw [heq]
    refine iff_of_true ?_ fun j hj k hk => ?_
    · split_ifs
      · exact hunique
      · exact hrefused 10
    · obtain rfl := hunique j i hj.1 hholds.1 hj.2.1 hholds.2.1 (hj.2.2.trans hholds.2.2.symm)
      exact (hbefore k hk).1
  · rw [heq]
    exact iff_of_true (hrefused 11) fun j hj => absurd hj (hnone j)
  · rw [heq]
    change (s.setPassiveGrab i g).UniqueGrabs ↔ _
    have hown : ¬s.HoldsGrab i := fun hholds =>
      absurd (hfree.symm.trans hholds.2.1) (by decide)
    by_cases hnone : ∀ j, ¬s.HoldsGrab j
    · exact iff_of_true (setPassiveGrab_unique hunique hkey hnone) fun j hj => absurd hj (hnone j)
    · push Not at hnone
      obtain ⟨j, hj⟩ := hnone
      have hji : j ≠ i := fun hji => hown (hji ▸ hj)
      have hlt : i < j := by
        rcases Nat.lt_or_ge j i with hlt | hge
        · exact absurd hj (hbefore j hlt).2
        · omega
      refine iff_of_false (fun hafter => hji ?_) fun hhole => ?_
      · refine hafter j i hj.1 hi ?_ ?_ ?_
        · rw [setPassiveGrab_ne s g hji]
          exact hj.2.1
        · rw [setPassiveGrab_self]
          exact hused
        · rw [setPassiveGrab_ne s g hji, setPassiveGrab_self, hkey]
          exact hj.2.2
      · exact absurd (hhole j hj i hlt) (by rw [hfree]; decide)

theorem passiveGrab_refused (h : s.GrabsPassive) (hunique : s.UniqueGrabs) (hhole : s.NoHole)
    {j : ℕ} (hj : s.HoldsGrab j) (hother : (s.passiveGrabs j).client ≠ s.incoming.clientId) :
    s.passiveGrab (s.payload 0) (s.field32 4) = s.refuse 10 (s.payload 0) (s.field32 4) := by
  rcases passiveGrab_cases h with ⟨i, hholds, -, heq⟩ | ⟨hnone, -⟩
    | ⟨i, g, hi, hfree, hbefore, -, -, -⟩
  · obtain rfl := hunique j i hj.1 hholds.1 hj.2.1 hholds.2.1 (hj.2.2.trans hholds.2.2.symm)
    rw [heq, if_neg hother]
  · exact absurd hj (hnone j)
  · rcases lt_trichotomy i j with hlt | rfl | hlt
    · exact absurd (hhole j hj i hlt) (by rw [hfree]; decide)
    · exact absurd hj.2.1 (by rw [hfree]; decide)
    · exact absurd hj (hbefore j hlt).2

/-! ## One record -/

theorem parseRequest_grabs (sys : Answers) (h : s.GrabsPassive) :
    s.parseRequest sys = some (s.passiveGrab (s.payload 0) (s.field32 4)) := by
  rcases h.opcode with hop | hop
  · rw [parseRequest_resource h.admitted 9 rfl hop (decide_eq_true h.length), hop]
  · rw [parseRequest_resource h.admitted 10 rfl hop (decide_eq_true h.length), hop]

theorem handle_sheds (sys : Answers) {wire : ℕ → UInt8} (hasked : s.asked wire = none)
    {r : Bool × Server} (h : s.handle sys wire = some (.ok r)) : Sheds s r.2 := by
  unfold handle at h
  unfold asked at hasked
  rcases hnative : isNative wire with _ | _
  · rw [hnative, if_neg (by simp)] at h
    rcases hreceive : s.assembly.receive (Packet.ofWire wire) with code | a
    · rw [hreceive] at h
      cases h
    rw [hreceive] at h hasked
    rw [hnative] at hasked
    dsimp only at h hasked
    have hassembly : Sheds s { s with assembly := a } := .of_eq rfl
    by_cases hactive : a.active = true
    · rw [if_pos hactive] at h
      cases h
      exact hassembly
    rw [if_neg hactive] at h
    have hsetup : (Server.incoming { s with assembly := a }).flags &&& flagSetup ≠ 0 := by
      by_contra hplain
      refine absurd hasked ?_
      rw [if_neg]
      · simp
      · rw [Bool.or_eq_true, bne_iff_ne]
        exact not_or.2 ⟨hactive, not_not.2 hplain⟩
    unfold dispatch at h
    rw [if_pos hsetup] at h
    rcases hparse : Server.parseSetup { s with assembly := a } with _ | t
    · rw [hparse] at h
      cases h
    · rw [hparse] at h
      cases h
      exact hassembly.trans (parseSetup_quiet hparse).toSheds
  · rw [if_pos hnative] at h
    cases h
    exact nativeInput_sheds sys s wire

theorem handle_asked (sys : Answers) {wire : ℕ → UInt8} {q : Server} (h : s.asked wire = some q) :
    s.handle sys wire = (q.parseRequest sys).map .ok := by
  unfold asked at h
  split at h
  · rename_i a hnative hreceive
    split_ifs at h with hbusy
    obtain rfl := Option.some.inj h
    rw [Bool.or_eq_true, bne_iff_ne, not_or, not_not] at hbusy
    unfold handle
    rw [if_neg (by simp [hnative]), hreceive]
    dsimp only
    rw [if_neg hbusy.1]
    unfold dispatch
    exact if_neg (not_not.2 hbusy.2)
  · cases h

end Server

namespace Process

def UniqueGrabs (p : Process) : Prop := ∀ s, p = .running s → s.UniqueGrabs

/-- Where a passive grab is asked for that is there, no free slot comes before it. -/
def NoHole (p : Process) (wire : ℕ → UInt8) : Prop :=
  ∀ q, p.asked wire = some q → q.GrabsPassive → q.NoHole

/-- Where a passive grab is asked for that another client has, an access error is the answer. -/
def Respects (sys : Answers) (p : Process) (wire : ℕ → UInt8) : Prop :=
  ∀ q j, p.asked wire = some q → q.GrabsPassive → q.HoldsGrab j →
    (q.passiveGrabs j).client ≠ q.incoming.clientId →
      step sys p wire = running (Server.answer sys (q.refuse 10 (q.payload 0) (q.field32 4)))

variable {sys : Answers} {p : Process} {wire : ℕ → UInt8}

theorem step_asked {s q : Server} (hasked : s.asked wire = some q) (hgrabs : q.GrabsPassive) :
    step sys (running s) wire
      = running (Server.answer sys (q.passiveGrab (q.payload 0) (q.field32 4))) := by
  unfold step Server.turn
  dsimp only
  rw [Server.handle_asked sys hasked, Server.parseRequest_grabs sys hgrabs]
  rfl

theorem step_unique_iff (h : p.UniqueGrabs) : (step sys p wire).UniqueGrabs ↔ p.NoHole wire := by
  rcases p with s | code | _
  · have hunique := h s rfl
    rcases hasked : s.asked wire with _ | q
    · refine iff_of_true (fun t ht => ?_) fun q hq => ?_
      · unfold step Server.turn at ht
        dsimp only at ht
        rcases hhandle : s.handle sys wire with _ | code | r
        · rw [hhandle] at ht
          cases ht
        · rw [hhandle] at ht
          cases ht
        · rw [hhandle] at ht
          cases ht
          exact hunique.sheds ((Server.handle_sheds sys hasked hhandle).trans
            (Server.answer_sheds sys r))
      · exact absurd (hasked.symm.trans hq) (by simp)
    · have hasks : ∀ q', (running s).asked wire = some q' → q = q' := fun q' hq' =>
        Option.some.inj (hasked.symm.trans hq')
      have hq : q.UniqueGrabs := by
        obtain ⟨a, -, rfl⟩ := Server.asked_eq hasked
        exact hunique
      by_cases hgrabs : q.GrabsPassive
      · rw [step_asked hasked hgrabs]
        refine Iff.trans ⟨fun hafter => hafter _ rfl, fun hafter t ht => ?_⟩
          ((Server.passiveGrab_unique_iff sys hgrabs hq).trans
            ⟨fun hhole q' hq' _ => hasks q' hq' ▸ hhole, fun hhole => hhole q hasked hgrabs⟩)
        cases ht
        exact hafter
      · refine iff_of_true (fun t ht => ?_) fun q' hq' hgrabs' =>
          absurd (hasks q' hq' ▸ hgrabs') hgrabs
        unfold step Server.turn at ht
        dsimp only at ht
        rw [Server.handle_asked sys hasked] at ht
        rcases hparse : q.parseRequest sys with _ | r
        · rw [hparse] at ht
          cases ht
        · rw [hparse] at ht
          cases ht
          rcases Server.parseRequest_adds hparse with hsheds | hadds
          · exact hq.sheds (hsheds.trans (Server.answer_sheds sys r))
          · exact absurd hadds.1 hgrabs
  · exact iff_of_true (fun t ht => by cases ht) fun q hq => by cases hq
  · exact iff_of_true (fun t ht => by cases ht) fun q hq => by cases hq

theorem respects_of_noHole (h : p.UniqueGrabs) (hhole : p.NoHole wire) : p.Respects sys wire := by
  intro q j hasked hgrabs hholds hother
  rcases p with s | code | _
  · have hq : q.UniqueGrabs := by
      obtain ⟨a, -, rfl⟩ := Server.asked_eq hasked
      exact h s rfl
    rw [step_asked hasked hgrabs,
      Server.passiveGrab_refused hgrabs hq (hhole q hasked hgrabs) hholds hother]
  · cases hasked
  · cases hasked

theorem start_unique : (running {}).UniqueGrabs := by
  intro s hs i j hi hj hused
  cases hs
  cases hused

/-- In a run of the server the passive grabs are unique in every state just when none is asked for
again behind a hole, and then every conflicting request is answered with an access error. -/
theorem passiveGrabs_unique_iff (sys : Answers) (wires : List (ℕ → UInt8)) :
    ((∀ before, before <+: wires → (run sys (running {}) before).UniqueGrabs)
      ↔ Machine.Meets (step sys) NoHole (running {}) wires)
    ∧ (Machine.Meets (step sys) NoHole (running {}) wires →
      Machine.Meets (step sys) (Respects sys) (running {}) wires) := by
  constructor
  · unfold run
    rw [Machine.prefixes_iff (step sys) (I := UniqueGrabs) wires _ start_unique]
    exact Machine.meets_congr (step sys) (I := UniqueGrabs)
      (fun p wire hp => step_unique_iff hp) (fun p wire _ hafter => hafter) wires _ start_unique
  · exact Machine.meets_imp (step sys) (I := UniqueGrabs)
      (fun p wire hp hhole => respects_of_noHole hp hhole)
      (fun p wire hp hhole => (step_unique_iff hp).2 hhole) wires _ start_unique

/-! ## A hole -/

def keyRecord (client : UInt32) (opcode detail : UInt8) : ℕ → UInt8 :=
  requestRecord client 24 (write32 (write16 (write8 (write8 (fun _ => 0) 0 opcode) 1 detail) 2 6) 4
    rootWindow)

/-- The first client grabs key 1 and the second key 2, then the first gives key 1 up and asks for
key 2. -/
def holeRecords : List (ℕ → UInt8) :=
  [keyRecord 1 Opcode.grabKey 1, keyRecord 2 Opcode.grabKey 2, keyRecord 1 Opcode.ungrabKey 1,
    keyRecord 1 Opcode.grabKey 2]

theorem grabs_doubled : ¬∀ (sys : Answers) (wires : List (ℕ → UInt8)),
    (run sys (running {}) wires).UniqueGrabs := by
  intro h
  have hdouble : (run (fun _ => failure) (running {}) holeRecords).server.map (fun s =>
      (s.passiveGrabs 0).used && (s.passiveGrabs 1).used
        && (s.passiveGrabs 0).key == (s.passiveGrabs 1).key) = some true := by
    decide +kernel
  obtain ⟨s, hs, hsame⟩ := Option.map_eq_some_iff.1 hdouble
  simp only [Bool.and_eq_true, beq_iff_eq] at hsame
  refine absurd (h (fun _ => failure) holeRecords s ?_ 0 1 (by decide) (by decide) hsame.1.1
    hsame.1.2 hsame.2) (by decide)
  generalize run (fun _ => failure) (running {}) holeRecords = p at hs ⊢
  rcases p with t | code | _
  · cases hs
    rfl
  · cases hs
  · cases hs

end Process

end DemonX

end DemonOS
