import DemonOS.Scheduler
import DemonOS.SlotTable
import DemonOS.Surface

/-!
# Capabilities

`src/capability.cpp`: one slot table per process, a handle being an owner, a slot and the slot's
generation packed into 32 bits, and per process the mask of services it may open. A surface
capability holds a reference on its surface, so the functions below work on the tables and the
surfaces together (`Objects`). The diagnostic counters are left out.
-/

namespace DemonOS

variable {c c' : Capabilities} {pid slot : ℕ}

def slotsPerProcess : ℕ := 8

/-- `enum capability_service`; `unset` is the 0 a fresh payload holds. -/
inductive CapabilityService where
  | unset | console | clock | process | storage | file | ipc | display | input | surface
  | network | audio
  deriving DecidableEq, Repr

namespace CapabilityService

def number : CapabilityService → ℕ
  | unset => 0
  | console => 1
  | clock => 2
  | process => 3
  | storage => 4
  | file => 5
  | ipc => 6
  | display => 7
  | input => 8
  | surface => 9
  | network => 10
  | audio => 11

def ofNumber : ℕ → CapabilityService
  | 1 => console
  | 2 => clock
  | 3 => process
  | 4 => storage
  | 5 => file
  | 6 => ipc
  | 7 => display
  | 8 => input
  | 9 => surface
  | 10 => network
  | 11 => audio
  | _ => unset

/-- `CAPABILITY_SERVICE_BIT`. -/
def bit (s : CapabilityService) : BitVec 32 := 1#32 <<< s.number

end CapabilityService

def rightWrite : BitVec 32 := 0x01#32
def rightQuery : BitVec 32 := 0x02#32
def rightRead : BitVec 32 := 0x04#32
def rightOpen : BitVec 32 := 0x08#32
def rightSend : BitVec 32 := 0x10#32
def rightReceive : BitVec 32 := 0x20#32

structure CapabilityPayload where
  service : CapabilityService := .unset
  rights : BitVec 32 := 0#32
  objectId : ℕ := 0
  deriving DecidableEq, Inhabited

abbrev CapabilityTable := SlotTable CapabilityPayload slotsPerProcess

structure Capabilities where
  tables : ℕ → CapabilityTable := fun _ => SlotTable.empty
  assignedServices : ℕ → BitVec 32 := fun _ => 0#32

/-- The capability tables together with the surfaces their slots refer to. -/
structure Objects where
  caps : Capabilities := {}
  surfaces : Surfaces := {}

def makeHandle (pid slot generation : ℕ) : ℕ := generation <<< 16 ||| pid <<< 8 ||| slot

/-- The owner, slot and generation a handle names. -/
def decodeHandle (handle : ℕ) : Option (ℕ × ℕ × ℕ) :=
  if handle >>> 32 ≠ 0 then none
  else
    let slot := handle &&& 0xFF
    let pid := (handle >>> 8) &&& 0xFF
    let generation := (handle >>> 16) % 65536
    if pid < processLimit ∧ slot < slotsPerProcess ∧ generation ≠ 0 then
      some (pid, slot, generation)
    else none

/-- The rights a service handle carries; none for a number that is not a service to open. -/
def serviceRights (service : ℕ) : BitVec 32 :=
  if service = CapabilityService.console.number then rightWrite
  else if service = CapabilityService.clock.number
      ∨ service = CapabilityService.process.number then rightQuery
  else if service = CapabilityService.storage.number then rightOpen ||| rightQuery
  else if service = CapabilityService.display.number then rightWrite ||| rightQuery
  else if service = CapabilityService.input.number then rightRead ||| rightQuery
  else if service = CapabilityService.surface.number then rightOpen ||| rightQuery
  else if service = CapabilityService.network.number then rightRead ||| rightQuery
  else if service = CapabilityService.audio.number then rightWrite ||| rightQuery
  else 0#32

namespace Capabilities

def setTable (c : Capabilities) (pid : ℕ) (t : CapabilityTable) : Capabilities :=
  { c with tables := Function.update c.tables pid t }

/-- Slot `slot` of `pid`'s table. -/
def entry (c : Capabilities) (pid slot : ℕ) : SlotEntry CapabilityPayload :=
  (c.tables pid).entries slot

/-- Assigns to one slot of one table. -/
def setEntry (c : Capabilities) (pid slot : ℕ) (e : SlotEntry CapabilityPayload) :
    Capabilities :=
  c.setTable pid ⟨Function.update (c.tables pid).entries slot e⟩

/-- `allocate_slot`: the handle of a fresh slot of `pid` holding `payload`. -/
def allocateSlot (c : Capabilities) (pid : ℕ) (payload : CapabilityPayload) :
    Option (ℕ × Capabilities) :=
  match (c.tables pid).allocate with
  | none => none
  | some (slot, generation, t) =>
    some (makeHandle pid slot generation, c.setTable pid (t.store slot payload))

/-- `capabilities_init`: every table free, and the first two slots given every service. -/
def capabilitiesInit : Capabilities where
  assignedServices := fun pid => if pid = 1 ∨ pid = 2 then 0xFFFFFFFF#32 else 0#32

def capabilityAssignServices (c : Capabilities) (pid : ℕ) (mask : BitVec 32) :
    Option Capabilities :=
  if pid = 0 ∨ processLimit ≤ pid then none
  else some { c with assignedServices := Function.update c.assignedServices pid mask }

def capabilityOpen (c : Capabilities) (pid service : ℕ) : Option (ℕ × Capabilities) :=
  if pid = 0 ∨ processLimit ≤ pid ∨ serviceRights service = 0#32
      ∨ c.assignedServices pid &&& (CapabilityService.ofNumber service).bit = 0#32 then none
  else c.allocateSlot pid
    { service := .ofNumber service, rights := serviceRights service, objectId := 0 }

def capabilityOpenFile (c : Capabilities) (pid objectId : ℕ) : Option (ℕ × Capabilities) :=
  if pid = 0 ∨ processLimit ≤ pid ∨ objectId = 0 then none
  else c.allocateSlot pid
    { service := .file, rights := rightRead ||| rightWrite ||| rightQuery, objectId := objectId }

def capabilityOpenIpc (c : Capabilities) (pid channelId : ℕ) (rights : BitVec 32) :
    Option (ℕ × Capabilities) :=
  if pid = 0 ∨ processLimit ≤ pid ∨ channelId = 0 ∨ rights = 0#32
      ∨ rights &&& ~~~(rightSend ||| rightReceive ||| rightQuery) ≠ 0#32
      ∨ c.assignedServices pid &&& CapabilityService.ipc.bit = 0#32 then none
  else c.allocateSlot pid { service := .ipc, rights := rights, objectId := channelId }

/-- `capability_resolve_object`: what the handle's slot holds, where the caller owns the slot, it
is open at that generation and has every required right. -/
def capabilityResolveObject (c : Capabilities) (callerPid handle : ℕ)
    (requiredRight : BitVec 32) : Option CapabilityPayload :=
  match decodeHandle handle with
  | none => none
  | some (owner, slot, generation) =>
    if owner ≠ callerPid then none
    else match (c.tables owner).resolve slot generation with
      | none => none
      | some grant => if grant.rights &&& requiredRight ≠ requiredRight then none else some grant

end Capabilities

namespace Objects

/-- Keeps the tables, replaces the surfaces. -/
def withSurfaces (o : Objects) (s : Surfaces) : Objects := { o with surfaces := s }

/-- `capability_open_surface`: the reference is taken first and given back where no slot is
free. -/
def capabilityOpenSurface (o : Objects) (pid surfaceId : ℕ) (rights : BitVec 32) :
    Option ℕ × Objects :=
  if pid = 0 ∨ processLimit ≤ pid ∨ surfaceId = 0 ∨ rights = 0#32
      ∨ rights &&& ~~~(rightRead ||| rightWrite ||| rightQuery) ≠ 0#32
      ∨ o.caps.assignedServices pid &&& CapabilityService.surface.bit = 0#32 then (none, o)
  else match o.surfaces.surfaceRetain surfaceId with
    | none => (none, o)
    | some s =>
      match o.caps.allocateSlot pid
          { service := .surface, rights := rights, objectId := surfaceId } with
      | none => (none, o.withSurfaces ((s.surfaceRelease surfaceId).getD s))
      | some (handle, c) => (some handle, { caps := c, surfaces := s })

/-- `capability_grant`: a copy of a surface capability with fewer rights for another process. -/
def capabilityGrant (o : Objects) (sourcePid sourceHandle targetPid : ℕ) (rights : BitVec 32) :
    Option ℕ × Objects :=
  if targetPid = 0 ∨ processLimit ≤ targetPid ∨ rights = 0#32 then (none, o)
  else match o.caps.capabilityResolveObject sourcePid sourceHandle rights with
    | none => (none, o)
    | some grant =>
      if grant.service ≠ .surface ∨ rights &&& ~~~(rightRead ||| rightQuery) ≠ 0#32
          ∨ o.caps.assignedServices targetPid &&& grant.service.bit = 0#32 then (none, o)
      else match o.surfaces.surfaceRetain grant.objectId with
        | none => (none, o)
        | some s =>
          match o.caps.allocateSlot targetPid
              { service := grant.service, rights := rights, objectId := grant.objectId } with
          | none => (none, o.withSurfaces ((s.surfaceRelease grant.objectId).getD s))
          | some (handle, c) => (some handle, { caps := c, surfaces := s })

/-- Frees slot `slot` of `pid`, with the reference a surface capability holds. -/
def releaseSlot (o : Objects) (pid slot : ℕ) : Option Objects :=
  match (o.caps.tables pid).release slot with
  | none => none
  | some (released, t) =>
    let o' : Objects := { o with caps := o.caps.setTable pid t }
    if released.service = .surface ∧ released.objectId ≠ 0 then
      some (o'.withSurfaces ((o.surfaces.surfaceRelease released.objectId).getD o.surfaces))
    else some o'

/-- `capability_close`. -/
def capabilityClose (o : Objects) (callerPid handle : ℕ) : Option Objects :=
  match o.caps.capabilityResolveObject callerPid handle 0#32 with
  | none => none
  | some _ => o.releaseSlot callerPid (handle &&& 0xFF)

/-- `capabilities_close_all`: every slot of `pid` freed and its service mask dropped. -/
def capabilitiesCloseAll (o : Objects) (pid : ℕ) : Objects :=
  if pid = 0 ∨ processLimit ≤ pid then o
  else
    let o' := (List.range slotsPerProcess).foldl (fun o slot => (o.releaseSlot pid slot).getD o) o
    { o' with caps :=
      { o'.caps with assignedServices := Function.update o'.caps.assignedServices pid 0#32 } }

end Objects

theorem decodeHandle_lt {handle pid slot generation : ℕ}
    (h : decodeHandle handle = some (pid, slot, generation)) :
    pid < processLimit ∧ slot < slotsPerProcess := by
  unfold decodeHandle at h
  split_ifs at h with h1
  simp only at h
  split_ifs at h with h2
  simp only [Option.some.injEq, Prod.mk.injEq] at h
  obtain ⟨rfl, rfl, -⟩ := h
  exact ⟨h2.1, h2.2.1⟩

/-! ## What each call does to the tables -/

namespace Capabilities

theorem entry_setEntry (c : Capabilities) (pid slot p i : ℕ) (e : SlotEntry CapabilityPayload) :
    (c.setEntry pid slot e).entry p i = if p = pid ∧ i = slot then e else c.entry p i := by
  unfold setEntry setTable entry
  rcases eq_or_ne p pid with rfl | hp
  · rcases eq_or_ne i slot with rfl | hi <;> simp [*]
  · simp [hp]

/-- `c'` is `c` with slot `slot` of `pid`, free before, opened for `payload` at its generation. -/
structure Opens (c : Capabilities) (pid slot : ℕ) (payload : CapabilityPayload)
    (c' : Capabilities) : Prop where
  slot_lt : slot < slotsPerProcess
  free : (c.entry pid slot).isOpen = false
  eq : c' = c.setEntry pid slot { c.entry pid slot with isOpen := true, payload := payload }

theorem Opens.entry_cases {payload : CapabilityPayload}
    (h : c.Opens pid slot payload c') (p i : ℕ) :
    c'.entry p i = c.entry p i ∨ p = pid ∧ i = slot ∧ (c'.entry p i).isOpen = true
      ∧ (c'.entry p i).payload = payload := by
  rw [h.eq, entry_setEntry]
  split_ifs with hpi
  · exact .inr ⟨hpi.1, hpi.2, rfl, rfl⟩
  · exact .inl rfl

/-- Every slot of `c'` is as in `c`, or was open there and has been freed. -/
def Released (c c' : Capabilities) : Prop :=
  ∀ p i, c'.entry p i = c.entry p i
    ∨ ((c.entry p i).isOpen = true ∧ (c'.entry p i).isOpen = false
      ∧ (c'.entry p i).generation = nextGeneration (c.entry p i).generation)

theorem Released.refl (c : Capabilities) : Released c c := fun _ _ => .inl rfl

theorem Released.trans {c₁ c₂ c₃ : Capabilities} (h : Released c₁ c₂) (h' : Released c₂ c₃) :
    Released c₁ c₃ := by
  intro p i
  rcases h p i with he | ⟨ho, hc, hg⟩ <;> rcases h' p i with he' | ⟨ho', hc', hg'⟩
  · exact .inl (he'.trans he)
  · exact .inr ⟨he ▸ ho', hc', he ▸ hg'⟩
  · exact .inr ⟨ho, he'.symm ▸ hc, he'.symm ▸ hg⟩
  · simp [hc] at ho'

theorem allocateSlot_spec {pid handle : ℕ} {payload : CapabilityPayload}
    (h : c.allocateSlot pid payload = some (handle, c')) :
    ∃ slot, handle = makeHandle pid slot (c.entry pid slot).generation
      ∧ c.Opens pid slot payload c' := by
  unfold allocateSlot at h
  split at h
  · cases h
  · rename_i slot generation t ht
    obtain ⟨hlt, hfree, rfl, hent⟩ := SlotTable.allocate_spec ht payload
    simp only [Option.some.injEq, Prod.mk.injEq] at h
    obtain ⟨rfl, rfl⟩ := h
    refine ⟨slot, rfl, hlt, hfree, ?_⟩
    unfold setEntry entry
    rw [← hent]

theorem capabilityOpen_spec {pid service handle : ℕ}
    (h : c.capabilityOpen pid service = some (handle, c')) :
    pid ≠ 0 ∧ pid < processLimit ∧ serviceRights service ≠ 0#32
      ∧ c.assignedServices pid &&& (CapabilityService.ofNumber service).bit ≠ 0#32
      ∧ ∃ slot, handle = makeHandle pid slot (c.entry pid slot).generation
        ∧ c.Opens pid slot
          { service := .ofNumber service, rights := serviceRights service, objectId := 0 } c' := by
  unfold capabilityOpen at h
  split_ifs at h with hc
  simp only [not_or, not_le] at hc
  exact ⟨hc.1, hc.2.1, hc.2.2.1, hc.2.2.2, allocateSlot_spec h⟩

theorem capabilityOpenFile_spec {pid objectId handle : ℕ}
    (h : c.capabilityOpenFile pid objectId = some (handle, c')) :
    pid ≠ 0 ∧ pid < processLimit ∧ objectId ≠ 0
      ∧ ∃ slot, handle = makeHandle pid slot (c.entry pid slot).generation
        ∧ c.Opens pid slot { service := .file, rights := rightRead ||| rightWrite ||| rightQuery
                             objectId := objectId } c' := by
  unfold capabilityOpenFile at h
  split_ifs at h with hc
  simp only [not_or, not_le] at hc
  exact ⟨hc.1, hc.2.1, hc.2.2, allocateSlot_spec h⟩

theorem capabilityOpenIpc_spec {pid channelId handle : ℕ}
    {rights : BitVec 32} (h : c.capabilityOpenIpc pid channelId rights = some (handle, c')) :
    pid ≠ 0 ∧ pid < processLimit ∧ channelId ≠ 0
      ∧ c.assignedServices pid &&& CapabilityService.ipc.bit ≠ 0#32
      ∧ ∃ slot, handle = makeHandle pid slot (c.entry pid slot).generation
        ∧ c.Opens pid slot { service := .ipc, rights := rights, objectId := channelId } c' := by
  unfold capabilityOpenIpc at h
  split_ifs at h with hc
  simp only [not_or, not_le] at hc
  exact ⟨hc.1, hc.2.1, hc.2.2.1, hc.2.2.2.2.2, allocateSlot_spec h⟩

theorem capabilityResolveObject_eq_some {callerPid handle : ℕ}
    {right : BitVec 32} {v : CapabilityPayload} :
    c.capabilityResolveObject callerPid handle right = some v ↔
      ∃ slot, decodeHandle handle = some (callerPid, slot, (c.entry callerPid slot).generation)
        ∧ slot < slotsPerProcess ∧ (c.entry callerPid slot).isOpen = true
        ∧ (c.entry callerPid slot).payload = v ∧ v.rights &&& right = right := by
  unfold capabilityResolveObject
  split
  · rename_i hd
    simp [hd]
  · rename_i owner slot generation hd
    split_ifs with howner
    · simp only [false_iff, not_exists, not_and]
      intro slot' hd'
      simp only [hd, Option.some.injEq, Prod.mk.injEq] at hd'
      exact absurd hd'.1 howner
    · simp only [not_not] at howner
      subst howner
      split
      · rename_i hr
        simp only [reduceCtorEq, false_iff, not_exists, not_and]
        intro slot' hd' hlt hopen
        simp only [hd, Option.some.injEq, Prod.mk.injEq, true_and] at hd'
        obtain ⟨rfl, hgen⟩ := hd'
        have := SlotTable.resolve_eq_some.2 ⟨hlt, hopen, hgen.symm, rfl⟩
        rw [hr] at this
        cases this
      · rename_i grant hr
        obtain ⟨hlt, hopen, hgen, hpay⟩ := SlotTable.resolve_eq_some.1 hr
        constructor
        · intro h
          split_ifs at h with hright
          simp only [Option.some.injEq] at h
          subst h
          exact ⟨slot, by rw [hd, ← hgen]; rfl, hlt, hopen, hpay, not_not.1 hright⟩
        · rintro ⟨slot', hd', -, -, rfl, hright⟩
          simp only [hd, Option.some.injEq, Prod.mk.injEq, true_and] at hd'
          obtain ⟨rfl, -⟩ := hd'
          subst hpay
          exact if_neg (not_not.2 hright)

end Capabilities

namespace Objects

theorem releaseSlot_spec {o o' : Objects} (h : o.releaseSlot pid slot = some o') :
    slot < slotsPerProcess ∧ (o.caps.entry pid slot).isOpen = true
      ∧ (∃ e : SlotEntry CapabilityPayload, e.isOpen = false
        ∧ e.generation = nextGeneration (o.caps.entry pid slot).generation
        ∧ o'.caps = o.caps.setEntry pid slot e)
      ∧ o'.surfaces =
        if (o.caps.entry pid slot).payload.service = .surface
            ∧ (o.caps.entry pid slot).payload.objectId ≠ 0 then
          (o.surfaces.surfaceRelease (o.caps.entry pid slot).payload.objectId).getD o.surfaces
        else o.surfaces := by
  unfold releaseSlot at h
  split at h
  · cases h
  · rename_i released t ht
    obtain ⟨hlt, hopen, rfl, e, he, -, hgen, hent⟩ := SlotTable.release_spec ht
    have hcaps : o.caps.setTable pid t = o.caps.setEntry pid slot e := by
      unfold Capabilities.setEntry
      congr 1
      rw [← hent]
    refine ⟨hlt, hopen, ⟨e, he, hgen, ?_⟩, ?_⟩
    all_goals
      simp only at h
      split_ifs at h with hs
      all_goals
        simp only [Option.some.injEq] at h
        subst h
    · exact hcaps
    · exact hcaps
    · exact (if_pos hs).symm
    · exact (if_neg hs).symm

/-- The outcomes of opening a surface capability for `pid`: nothing happens; the reference is taken
and given back, no slot being free; or a slot is opened with the reference it takes. -/
inductive SurfaceOpening (o : Objects) (pid surfaceId : ℕ) (rights : BitVec 32) :
    Option ℕ → Objects → Prop
  | refused : SurfaceOpening o pid surfaceId rights none o
  | rolledBack {s : Surfaces} (retained : o.surfaces.surfaceRetain surfaceId = some s) :
    SurfaceOpening o pid surfaceId rights none
      (o.withSurfaces ((s.surfaceRelease surfaceId).getD s))
  | opened {slot : ℕ} {s : Surfaces} {c : Capabilities} (pid_pos : pid ≠ 0)
    (pid_lt : pid < processLimit)
    (assigned : o.caps.assignedServices pid &&& CapabilityService.surface.bit ≠ 0#32)
    (retained : o.surfaces.surfaceRetain surfaceId = some s)
    (opens : o.caps.Opens pid slot
      { service := .surface, rights := rights, objectId := surfaceId } c) :
    SurfaceOpening o pid surfaceId rights
      (some (makeHandle pid slot (o.caps.entry pid slot).generation)) { caps := c, surfaces := s }

theorem capabilityOpenSurface_spec (o : Objects) (pid surfaceId : ℕ) (rights : BitVec 32) :
    SurfaceOpening o pid surfaceId rights (o.capabilityOpenSurface pid surfaceId rights).1
      (o.capabilityOpenSurface pid surfaceId rights).2 := by
  unfold capabilityOpenSurface
  split_ifs with hc
  · exact .refused
  · simp only [not_or, not_le] at hc
    split
    · exact .refused
    · rename_i s hs
      split
      · exact .rolledBack hs
      · rename_i handle c ha
        obtain ⟨slot, rfl, hopen⟩ := Capabilities.allocateSlot_spec ha
        exact .opened hc.1 hc.2.1 hc.2.2.2.2.2 hs hopen

theorem capabilityGrant_spec (o : Objects) (sourcePid sourceHandle targetPid : ℕ)
    (rights : BitVec 32) :
    o.capabilityGrant sourcePid sourceHandle targetPid rights = (none, o)
    ∨ ∃ source, o.caps.capabilityResolveObject sourcePid sourceHandle rights = some source
      ∧ source.service = .surface ∧ rights &&& ~~~(rightRead ||| rightQuery) = 0#32
      ∧ SurfaceOpening o targetPid source.objectId rights
          (o.capabilityGrant sourcePid sourceHandle targetPid rights).1
          (o.capabilityGrant sourcePid sourceHandle targetPid rights).2 := by
  unfold capabilityGrant
  split_ifs with hc
  · exact .inl rfl
  · simp only [not_or, not_le] at hc
    split
    · exact .inl rfl
    · rename_i source hsource
      split_ifs with hg
      · exact .inl rfl
      · simp only [not_or, not_not] at hg
        obtain ⟨hsurface, hrights, hassigned⟩ := hg
        refine .inr ⟨source, hsource, hsurface, hrights, ?_⟩
        split
        · exact .refused
        · rename_i s hs
          split
          · exact .rolledBack hs
          · rename_i handle c ha
            rw [hsurface] at ha hassigned
            obtain ⟨slot, rfl, hopen⟩ := Capabilities.allocateSlot_spec ha
            exact .opened hc.1 hc.2.1 hassigned hs hopen

theorem releaseSlot_eq_none {o : Objects} (h : o.releaseSlot pid slot = none)
    (hslot : slot < slotsPerProcess) : (o.caps.entry pid slot).isOpen = false := by
  unfold releaseSlot SlotTable.release at h
  rw [if_neg (by omega)] at h
  split at h
  · rename_i hrel
    split_ifs at hrel with hopen
    simpa [Capabilities.entry] using hopen
  · simp only at h
    split_ifs at h

theorem releaseSlot_released {o o' : Objects}
    (h : o.releaseSlot pid slot = some o') :
    Capabilities.Released o.caps o'.caps
      ∧ o'.caps.assignedServices = o.caps.assignedServices := by
  obtain ⟨-, hopen, ⟨e, he, hgen, heq⟩, -⟩ := releaseSlot_spec h
  refine ⟨fun p i => ?_, by rw [heq]; rfl⟩
  rw [heq, Capabilities.entry_setEntry]
  split_ifs with hpi
  · obtain ⟨rfl, rfl⟩ := hpi
    exact .inr ⟨hopen, he, hgen⟩
  · exact .inl rfl

theorem capabilityClose_spec {o o' : Objects} {callerPid handle : ℕ}
    (h : o.capabilityClose callerPid handle = some o') :
    callerPid < processLimit ∧ ∃ slot, o.releaseSlot callerPid slot = some o' := by
  unfold capabilityClose at h
  split at h
  · cases h
  · rename_i hr
    obtain ⟨slot, hd, -⟩ := Capabilities.capabilityResolveObject_eq_some.1 hr
    exact ⟨(decodeHandle_lt hd).1, _, h⟩

theorem foldl_releaseSlot_inv (pid : ℕ) {P : Objects → Prop}
    (hP : ∀ o o' slot, P o → o.releaseSlot pid slot = some o' → P o') :
    ∀ (slots : List ℕ) (o : Objects), P o →
      P (slots.foldl (fun o slot => (o.releaseSlot pid slot).getD o) o)
  | [], _, ho => ho
  | slot :: slots, o, ho => by
    rw [List.foldl_cons]
    refine foldl_releaseSlot_inv pid hP slots _ ?_
    cases h : o.releaseSlot pid slot with
    | none => exact ho
    | some o' => exact hP o o' slot ho h

theorem foldl_releaseSlot_closed :
    ∀ (slots : List ℕ) (o : Objects), (∀ j ∈ slots, j < slotsPerProcess) → slot ∈ slots →
      ((slots.foldl (fun o slot => (o.releaseSlot pid slot).getD o) o).caps.entry pid
        slot).isOpen = false
  | [], _, _, h => absurd h (List.not_mem_nil)
  | j :: slots, o, hlt, h => by
    rw [List.foldl_cons]
    have hkeep : ∀ o₀ : Objects, (o₀.caps.entry pid slot).isOpen = false →
        ((slots.foldl (fun o slot => (o.releaseSlot pid slot).getD o) o₀).caps.entry pid
          slot).isOpen = false := by
      refine fun o₀ h₀ => foldl_releaseSlot_inv pid
        (P := fun o => (o.caps.entry pid slot).isOpen = false) (fun o₁ o₂ i h₁ h₂ => ?_) slots o₀ h₀
      rcases (releaseSlot_released h₂).1 pid slot with he | ⟨-, hc, -⟩
      · rw [he]
        exact h₁
      · exact hc
    rcases List.mem_cons.1 h with rfl | h
    · refine hkeep _ ?_
      cases hr : o.releaseSlot pid slot with
      | some o' =>
        obtain ⟨-, -, ⟨e, he, -, heq⟩, -⟩ := releaseSlot_spec hr
        rw [Option.getD_some, heq, Capabilities.entry_setEntry]
        simpa using he
      | none => exact releaseSlot_eq_none hr (hlt slot List.mem_cons_self)
    · exact foldl_releaseSlot_closed slots _ (fun j hj => hlt j (List.mem_cons_of_mem _ hj)) h

theorem capabilitiesCloseAll_released (o : Objects) (pid : ℕ) :
    Capabilities.Released o.caps (o.capabilitiesCloseAll pid).caps := by
  unfold capabilitiesCloseAll
  split_ifs
  · exact .refl _
  · exact foldl_releaseSlot_inv pid (P := fun o' => Capabilities.Released o.caps o'.caps)
      (fun o₁ o₂ slot h₁ h₂ => h₁.trans (releaseSlot_released h₂).1) _ o (.refl _)

theorem capabilitiesCloseAll_closed (o : Objects) (hpid : pid ≠ 0)
    (hlt : pid < processLimit) (hslot : slot < slotsPerProcess) :
    ((o.capabilitiesCloseAll pid).caps.entry pid slot).isOpen = false := by
  unfold capabilitiesCloseAll
  rw [if_neg (by omega)]
  exact foldl_releaseSlot_closed _ _ (fun j hj => List.mem_range.1 hj) (List.mem_range.2 hslot)

theorem capabilitiesCloseAll_assignedServices (o : Objects) (pid : ℕ) :
    (o.capabilitiesCloseAll pid).caps.assignedServices =
      if pid = 0 ∨ processLimit ≤ pid then o.caps.assignedServices
      else Function.update o.caps.assignedServices pid 0#32 := by
  unfold capabilitiesCloseAll
  split_ifs
  · rfl
  · have := foldl_releaseSlot_inv pid
      (P := fun o' => o'.caps.assignedServices = o.caps.assignedServices)
      (fun o₁ o₂ slot h₁ h₂ => (releaseSlot_released h₂).2.trans h₁)
      (List.range slotsPerProcess) o rfl
    simp only [this]

end Objects

end DemonOS
