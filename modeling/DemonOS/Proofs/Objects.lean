import DemonOS.Proofs.Lifecycle

/-!
# What a step does to capabilities, surfaces and mappings

Seen from the capability tables, the surfaces and the surfaces mapped into processes (the
`ObjectView`), a step of the kernel either takes things away, in any number of `Shrink`s, or opens
one capability or maps one surface (`Grows`). This is said once, in `step_view`; the laws about
capabilities and surfaces follow from it.
-/

namespace DemonOS

open Capabilities Objects

variable {c c' : Capabilities} {k k' : Kernel}

namespace Kernel

/-- A change by which the running process, or the target of its grant, gains a capability, or the
running process a mapping. -/
inductive Grows (k : Kernel) : ObjectView → Prop
  | service {number slot : ℕ} {c : Capabilities} (valid : UserMemory.validPid k.current)
    (rights : serviceRights number ≠ 0#32)
    (assigned : k.objects.caps.assignedServices k.current
      &&& (CapabilityService.ofNumber number).bit ≠ 0#32)
    (opens : k.objects.caps.Opens k.current slot
      { service := .ofNumber number, rights := serviceRights number, objectId := 0 } c) :
    Grows k ⟨{ k.objects with caps := c }, k.mem.mappedSurface⟩
  | file {handle : UInt64} {id slot : ℕ} {c : Capabilities} (valid : UserMemory.validPid k.current)
    (id_pos : id ≠ 0)
    (storage : k.holds handle rightOpen .storage = true)
    (opens : k.objects.caps.Opens k.current slot
      { service := .file, rights := rightRead ||| rightWrite ||| rightQuery, objectId := id } c) :
    Grows k ⟨{ k.objects with caps := c }, k.mem.mappedSurface⟩
  | ipc {id slot : ℕ} {rights : BitVec 32} {c : Capabilities} (valid : UserMemory.validPid k.current)
    (id_pos : id ≠ 0)
    (assigned : k.objects.caps.assignedServices k.current &&& CapabilityService.ipc.bit ≠ 0#32)
    (opens : k.objects.caps.Opens k.current slot
      { service := .ipc, rights := rights, objectId := id } c) :
    Grows k ⟨{ k.objects with caps := c }, k.mem.mappedSurface⟩
  | create {width height id handle : ℕ} {s : Surfaces} {o : Objects}
    (created : k.objects.surfaces.surfaceCreate k.current width height = some (id, s))
    (opened : SurfaceOpening (k.objects.withSurfaces s) k.current id
      (rightRead ||| rightWrite ||| rightQuery) (some handle) o) :
    Grows k ⟨o, k.mem.mappedSurface⟩
  | grant {sourceHandle target handle : ℕ} {source : CapabilityPayload} {o : Objects}
    (resolved : k.objects.caps.capabilityResolveObject k.current sourceHandle
      (rightRead ||| rightQuery) = some source)
    (surface : source.service = .surface)
    (opened : SurfaceOpening k.objects target source.objectId (rightRead ||| rightQuery)
      (some handle) o) :
    Grows k ⟨o, k.mem.mappedSurface⟩
  | map {handle : UInt64} {id slot : ℕ} {s : Surfaces}
    (resolved : k.resolveObject handle rightRead .surface = some id)
    (valid : UserMemory.validPid k.current) (used : k.mem.processMemoryUsed k.current = true)
    (slot_lt : slot < userSurfaceMapSlots) (free : k.mem.mappedSurface k.current slot = 0)
    (retained : k.objects.surfaces.surfaceRetain id = some s) :
    Grows k ⟨k.objects.withSurfaces s,
      UserMemory.update2 k.mem.mappedSurface k.current slot id⟩

/-- What a step comes to, seen in the view. -/
def Changes (k k' : Kernel) : Prop := Shrinks k.view k'.view ∨ Grows k k'.view

/-! ## System calls -/

theorem SameStores.changes (h : SameStores k k') : Changes k k' := .inl h.shrinks

theorem retHandle_changes {k k₁ : Kernel} {r : Option (ℕ × Capabilities)}
    (hk : k₁.view = k.view)
    (h : ∀ handle c, r = some (handle, c) →
      Grows k ⟨{ k.objects with caps := c }, k.mem.mappedSurface⟩) :
    Changes k (k₁.retHandle r) := by
  have ho : k₁.objects = k.objects := congrArg ObjectView.objects hk
  have hm : k₁.mem.mappedSurface = k.mem.mappedSurface := congrArg ObjectView.mapped hk
  cases r with
  | none => exact .inl (hk ▸ Shrinks.refl _)
  | some r =>
    have := h r.1 r.2 rfl
    rw [← ho, ← hm] at this
    exact .inr this

theorem syscallOpen_changes (k : Kernel) (number : ℕ) :
    Changes k (k.retHandle (k.objects.caps.capabilityOpen k.current number)) := by
  refine retHandle_changes rfl fun handle c h => ?_
  obtain ⟨hpos, hlt, hrights, hassigned, slot, -, hopen⟩ := capabilityOpen_spec h
  exact .service ⟨hpos, hlt⟩ hrights hassigned hopen

theorem syscallWrite_changes (k : Kernel) (f : Frame) (user : ℕ → UInt8) :
    Changes k (k.syscallWrite f user) := by
  unfold syscallWrite
  split
  · exact .inl (.refl _)
  · split_ifs
    any_goals exact .inl (.refl _)
    split <;> exact .inl (.refl _)

theorem syscallClose_changes (k : Kernel) (f : Frame) : Changes k (k.syscallClose f) := by
  unfold syscallClose
  split
  · exact .inl (.refl _)
  · rename_i o ho
    obtain ⟨hpid, slot, hslot⟩ := capabilityClose_spec ho
    exact .inl (Shrink.release (v := k.view) hpid hslot).shrinks

theorem syscallOpenFile_changes (k : Kernel) (f : Frame) (user : ℕ → UInt8) :
    Changes k (k.syscallOpenFile f user) := by
  unfold syscallOpenFile
  split_ifs with hcheck
  · exact .inl (.refl _)
  · split
    · exact .inl (.refl _)
    · refine retHandle_changes rfl fun handle c h => ?_
      obtain ⟨hpos, hlt, hid, slot, -, hopen⟩ := capabilityOpenFile_spec h
      have hholds : k.holds f.rdi rightOpen .storage = true := by
        simp only [Bool.or_eq_true, Bool.not_eq_true', not_or, Bool.not_eq_false] at hcheck
        exact hcheck.1
      exact .file ⟨hpos, hlt⟩ hid hholds hopen

theorem syscallDelete_changes (k : Kernel) (f : Frame) (user : ℕ → UInt8) :
    Changes k (k.syscallDelete f user) := by
  unfold syscallDelete
  split_ifs
  · exact .inl (.refl _)
  · split <;> exact .inl (.refl _)

theorem syscallRename_changes (k : Kernel) (f : Frame) (user : ℕ → UInt8) :
    Changes k (k.syscallRename f user) := by
  unfold syscallRename
  split_ifs
  · exact .inl (.refl _)
  · split <;> exact .inl (.refl _)

theorem syscallIpcCreate_changes (k : Kernel) (f : Frame) (user : ℕ → UInt8) :
    Changes k (k.syscallIpcCreate f user) := by
  unfold syscallIpcCreate
  split_ifs
  · exact .inl (.refl _)
  · simp only [Ipc.ipcCreate]
    split_ifs
    · exact .inl (.refl _)
    · split
      · exact .inl (.refl _)
      · split
        · exact .inl (.refl _)
        · split
          · exact .inl (.refl _)
          · rename_i handle c h
            obtain ⟨hpos, hlt, hid, hassigned, slot, -, hopen⟩ := capabilityOpenIpc_spec h
            exact .inr (.ipc ⟨hpos, hlt⟩ hid hassigned hopen)

theorem syscallIpcConnect_changes (k : Kernel) (f : Frame) (user : ℕ → UInt8) :
    Changes k (k.syscallIpcConnect f user) := by
  unfold syscallIpcConnect
  split_ifs
  · exact .inl (.refl _)
  · refine retHandle_changes rfl fun handle c h => ?_
    unfold Ipc.ipcConnect at h
    split_ifs at h
    split at h
    · cases h
    · obtain ⟨hpos, hlt, hid, hassigned, slot, -, hopen⟩ := capabilityOpenIpc_spec h
      exact .ipc ⟨hpos, hlt⟩ hid hassigned hopen

theorem syscallInputPoll_changes (k : Kernel) (f : Frame) : Changes k (k.syscallInputPoll f) := by
  unfold syscallInputPoll
  split
  · exact .inl (.refl _)
  · split <;> exact .inl (.refl _)

theorem surfaceDiscard_uncreates {s s₁ s₂ : Surfaces} {ownerPid width height id : ℕ}
    (h : s.surfaceCreate ownerPid width height = some (id, s₁))
    (h₂ : s₂ = s₁ ∨ ∃ s', s₁.surfaceRetain id = some s' ∧ s₂ = (s'.surfaceRelease id).getD s') :
    ∃ i, (s.objects i).active = false
      ∧ ((s₂.surfaceDiscard id).getD s₂).objects = Function.update s.objects i {} := by
  obtain ⟨i, offset, rfl, hi, hinactive, -, -, -, -, -, -, rfl⟩ := Surfaces.surfaceCreate_spec h
  have hres : ∀ (s : Surfaces) (o : SurfaceObject), o.active = true →
      (s.setObject i o).resolve (i + 1) = some i :=
    fun s o ho => Surfaces.resolve_eq_some.2 ⟨rfl, hi, by simpa using ho⟩
  refine ⟨i, hinactive, ?_⟩
  rcases h₂ with rfl | ⟨s', hs', rfl⟩
  · simp [Surfaces.surfaceDiscard, hres]
  · obtain ⟨j, hj, rfl⟩ := Surfaces.surfaceRetain_spec hs'
    rw [hres _ _ rfl] at hj
    cases hj
    have hrel : ∀ s : Surfaces, (s.clearObject i).resolve (i + 1) = none := by
      intro s
      simp [Surfaces.resolve]
    simp [Surfaces.surfaceRelease, hres, Surfaces.surfaceDiscard, hrel]

theorem syscallSurfaceCreate_changes (k : Kernel) (f : Frame) :
    Changes k (k.syscallSurfaceCreate f) := by
  unfold syscallSurfaceCreate
  split_ifs
  · exact .inl (.refl _)
  · split
    · exact .inl (.refl _)
    · rename_i id s hs
      have hopen := capabilityOpenSurface_spec (k.objects.withSurfaces s) k.current id
        (rightRead ||| rightWrite ||| rightQuery)
      split
      · rename_i handle o heq
        rw [heq] at hopen
        exact .inr (.create hs hopen)
      · rename_i o heq
        rw [heq] at hopen
        cases hopen with
        | refused =>
          obtain ⟨i, hi, heq⟩ := surfaceDiscard_uncreates hs (.inl rfl)
          exact .inl (Shrink.uncreate (v := k.view) hi heq).shrinks
        | rolledBack hretain =>
          obtain ⟨i, hi, heq⟩ := surfaceDiscard_uncreates hs (.inr ⟨_, hretain, rfl⟩)
          exact .inl (Shrink.uncreate (v := k.view) hi heq).shrinks

theorem setObject_touches {s : Surfaces} {i : ℕ} {o : SurfaceObject}
    (ha : o.active = (s.objects i).active) (hr : o.references = (s.objects i).references) :
    s.Touches (s.setObject i o) := by
  constructor
  all_goals
    intro j
    rcases eq_or_ne j i with rfl | hj
    · simp [ha, hr]
    · simp [hj]

theorem surfaceWrite_touches {s s' : Surfaces} {id offset : ℕ} {pixels : List UInt32}
    (h : s.surfaceWrite id offset pixels = some s') : s.Touches s' := by
  unfold Surfaces.surfaceWrite at h
  split at h
  · cases h
  · split_ifs at h
    simp only [Option.some.injEq] at h
    exact ⟨fun i => by rw [← h], fun i => by rw [← h]⟩

theorem surfaceDamage_touches {s s' : Surfaces} {id x y width height : ℕ}
    (h : s.surfaceDamage id x y width height = some s') : s.Touches s' := by
  unfold Surfaces.surfaceDamage at h
  split at h
  · cases h
  · split_ifs at h
    simp only [Option.some.injEq] at h
    rw [← h]
    exact setObject_touches rfl rfl

theorem surfaceTakeDamage_touches {s s' : Surfaces} {id damage : ℕ}
    (h : s.surfaceTakeDamage id = some (damage, s')) : s.Touches s' := by
  unfold Surfaces.surfaceTakeDamage at h
  split at h
  · cases h
  · split_ifs at h
    simp only [Option.some.injEq, Prod.mk.injEq] at h
    rw [← h.2]
    exact setObject_touches rfl rfl

theorem syscallSurfaceWrite_changes (k : Kernel) (f : Frame) (user : ℕ → UInt8) :
    Changes k (k.syscallSurfaceWrite f user) := by
  unfold syscallSurfaceWrite
  split
  · exact .inl (.refl _)
  · split
    · exact .inl (.refl _)
    · split
      · exact .inl (.refl _)
      · extract_lets pixel
        split
        · exact .inl (.refl _)
        · rename_i s hs
          exact .inl (Shrink.touch (v := k.view) (surfaceWrite_touches hs)).shrinks

theorem syscallSurfaceDamage_changes (k : Kernel) (f : Frame) :
    Changes k (k.syscallSurfaceDamage f) := by
  unfold syscallSurfaceDamage
  split
  · exact .inl (.refl _)
  · split
    · exact .inl (.refl _)
    · rename_i s hs
      exact .inl (Shrink.touch (v := k.view) (surfaceDamage_touches hs)).shrinks

theorem syscallTakeDamage_changes (k : Kernel) (f : Frame) :
    Changes k (k.syscallTakeDamage f) := by
  unfold syscallTakeDamage
  split
  · exact .inl (.refl _)
  · split
    · exact .inl (.refl _)
    · rename_i damage s hs
      exact .inl (Shrink.touch (v := k.view) (surfaceTakeDamage_touches hs)).shrinks

theorem syscallGrant_changes (k : Kernel) (f : Frame) : Changes k (k.syscallGrant f) := by
  unfold syscallGrant
  split
  · exact .inl (.refl _)
  · rename_i target _
    rcases capabilityGrant_spec k.objects k.current f.rdi.toNat target (rightRead ||| rightQuery)
      with h | ⟨source, hsource, hsurface, -, h⟩
    · rw [h]
      exact .inl (.refl _)
    · generalize k.objects.capabilityGrant k.current f.rdi.toNat target _ = r at h
      obtain ⟨result, o⟩ := r
      cases h with
      | refused => exact .inl (.refl _)
      | rolledBack hretain => exact .inl (Shrink.bounce (v := k.view) hretain).shrinks
      | opened h₁ h₂ h₃ h₄ h₅ => exact .inr (.grant hsource hsurface (.opened h₁ h₂ h₃ h₄ h₅))

theorem syscallSurfaceMap_changes (k : Kernel) (f : Frame) :
    Changes k (k.syscallSurfaceMap f) := by
  unfold syscallSurfaceMap
  split
  · exact .inl (.refl _)
  · rename_i id hid
    simp only [mapSurfaceReadonly]
    split_ifs with hpid
    · exact .inl (.refl _)
    · simp only [not_or, not_not, Bool.not_eq_false] at hpid
      split
      · exact .inl (.refl _)
      · split
        · exact .inl (.refl _)
        · rename_i slot hslot
          obtain ⟨hlt, hfree, -⟩ := Table.firstIndex_eq_some.1 hslot
          split
          · exact .inl (.refl _)
          · rename_i address pages _
            split_ifs
            · exact .inl (.refl _)
            · split
              · exact .inl (.refl _)
              · rename_i s hs
                have hm := (UserMemory.editSurfacePtes_same k.mem k.current slot address pages
                  true).mapped
                split
                · rename_i m heq
                  rw [heq] at hm
                  have h := (Shrink.bounce (v := k.view) hs).shrinks
                  rw [show k.view.mapped = m.mappedSurface from hm.symm] at h
                  exact .inl h
                · rename_i m heq
                  rw [heq] at hm
                  have h := Grows.map hid hpid.1 hpid.2 hlt (by simpa using hfree) hs
                  rw [show k.mem.mappedSurface = m.mappedSurface from hm.symm] at h
                  exact .inr h

theorem syscallSurfaceUnmap_changes (k : Kernel) (f : Frame) :
    Changes k (k.syscallSurfaceUnmap f) := by
  unfold syscallSurfaceUnmap
  split
  · exact .inl (.refl _)
  · split
    · exact .inl (.refl _)
    · rename_i id _ _ k' hk'
      unfold unmapSurfaceId at hk'
      split_ifs at hk' with hpid
      simp only [not_or, not_not] at hpid
      rw [Option.map_eq_some_iff] at hk'
      obtain ⟨slot, hslot, rfl⟩ := hk'
      obtain ⟨hlt, hmapped, -⟩ := Table.firstIndex_eq_some.1 hslot
      have hne : k.mem.mappedSurface k.current slot ≠ 0 := by
        have : k.mem.mappedSurface k.current slot = id := by simpa using hmapped
        rw [this]
        exact hpid.2
      exact .inl (unmapSlot_shrink hpid.1.2 hlt hne).shrinks

theorem withMem_changes {m : UserMemory} (h : UserMemory.SameProcesses k.mem m)
    (rax : UInt64) : Changes k ((k.withMem m).ret rax) := by
  refine .inl ?_
  unfold view
  simp only [ret_objects, withMem_objects, ret_mem, withMem_mem, h.mapped]
  exact .refl _

theorem syscallAnonymousUnmap_changes (k : Kernel) (f : Frame) :
    Changes k (k.syscallAnonymousUnmap f) := by
  unfold syscallAnonymousUnmap
  split_ifs
  · exact .inl (.refl _)
  · exact withMem_changes (UserMemory.anonymousRelease_same _ _) 0

theorem syscallDispatch_changes (k : Kernel) (user : ℕ → UInt8) (dev : Devices) :
    Changes k (k.syscallDispatch user dev) := by
  have call := k.syscallDispatch_call user dev
  generalize k.syscallDispatch user dev = k' at call
  cases call with
  | yield => exact .inl (.refl _)
  | exit => exact .inl (syscallExit_lifecycle k _).view
  | openService => exact syscallOpen_changes k _
  | write => exact syscallWrite_changes k _ user
  | close => exact syscallClose_changes k _
  | openFile => exact syscallOpenFile_changes k _ user
  | delete => exact syscallDelete_changes k _ user
  | rename => exact syscallRename_changes k _ user
  | spawn => exact .inl (syscallSpawn_lifecycle k _ user).view
  | wait => exact .inl (schedulerOnWait_lifecycle k _).view
  | terminate => exact .inl (syscallTerminate_lifecycle k _).view
  | ipcCreate => exact syscallIpcCreate_changes k _ user
  | ipcConnect => exact syscallIpcConnect_changes k _ user
  | send => exact (syscallSend_same k _ user).changes
  | receive => exact (syscallReceive_same k _).changes
  | inputPoll => exact syscallInputPoll_changes k _
  | surfaceCreate => exact syscallSurfaceCreate_changes k _
  | surfaceWrite => exact syscallSurfaceWrite_changes k _ user
  | grant => exact syscallGrant_changes k _
  | select => exact (syscallSelect_same k _).changes
  | surfaceMap => exact syscallSurfaceMap_changes k _
  | surfaceDamage => exact syscallSurfaceDamage_changes k _
  | takeDamage => exact syscallTakeDamage_changes k _
  | surfaceUnmap => exact syscallSurfaceUnmap_changes k _
  | anonymousMap => exact withMem_changes (UserMemory.anonymousMap_same _ _ _) _
  | anonymousUnmap => exact syscallAnonymousUnmap_changes k _
  | anonymousReserve => exact withMem_changes (UserMemory.anonymousReserve_same _ _ _) _
  | anonymousCommit => exact withMem_changes (UserMemory.anonymousCommit_same _ _ _ _) _
  | spawnAndWait => exact .inl (syscallSpawnAndWait_lifecycle k _ user).view
  | reapExited => exact .inl k.syscallReapExited_lifecycle.view
  | value => exact .inl (.refl _)

theorem kernelCall_shrinks (k : Kernel) (call : KernelCall) :
    Shrinks k.view (k.kernelCall call).view := by
  cases call with
  | discardInput => exact .refl _
  | file => exact .refl _
  | _ => exact (kernelCall_lifecycle (by simp) (by simp)).view

theorem Changes.of_enter {registers : Frame}
    (h : Changes (k.enter registers) k') : Changes k k' := by
  refine h.imp (fun h => h) fun h => ?_
  generalize k'.view = v at h
  cases h with
  | service valid rights assigned opens => exact .service valid rights assigned opens
  | file valid id_pos storage opens => exact .file valid id_pos storage opens
  | ipc valid id_pos assigned opens => exact .ipc valid id_pos assigned opens
  | create created opened => exact .create created opened
  | grant resolved surface opened => exact .grant resolved surface opened
  | map resolved valid used slot_lt free retained =>
    exact .map resolved valid used slot_lt free retained

theorem step_view (k : Kernel) (e : Event) : Changes k (k.step e) := by
  cases e with
  | syscall registers user dev =>
    simp only [step]
    split_ifs
    · exact .of_enter (syscallDispatch_changes (k.enter registers) user dev)
    · exact .inl (.refl _)
  | timerTick registers =>
    simp only [step]
    split_ifs
    · exact .inl ((withSched_same k _).trans (schedulerOnTimerTick_same _)).shrinks
    · exact (schedulerOnTimerTick_same k).changes
  | input event => exact (inputPublish_same k event).changes
  | kernel call =>
    simp only [step]
    split_ifs
    · exact .inl (.refl _)
    · exact .inl (kernelCall_shrinks k call)

end Kernel

/-! ## What open slots and mappings name -/

/-- The slots that are open keep what they hold, or are freed. -/
def Capabilities.Keeps (c c' : Capabilities) : Prop :=
  ∀ p i, (c.entry p i).isOpen = true →
    c'.entry p i = c.entry p i ∨ (c'.entry p i).isOpen = false

def objectOf (service : CapabilityService) (e : SlotEntry CapabilityPayload) : Option ℕ :=
  if e.isOpen = true ∧ e.payload.service = service ∧ e.payload.objectId ≠ 0 then
    some (e.payload.objectId - 1)
  else none

theorem objectOf_eq_some {service : CapabilityService} {e : SlotEntry CapabilityPayload} {i : ℕ} :
    objectOf service e = some i ↔
      e.isOpen = true ∧ e.payload.service = service ∧ e.payload.objectId = i + 1 := by
  unfold objectOf
  split_ifs with h
  · simp only [h, Option.some.injEq, true_and]
    omega
  · simp only [false_iff]
    rintro ⟨hopen, hservice, hid⟩
    exact h ⟨hopen, hservice, by omega⟩

theorem objectOf_of_closed {service : CapabilityService} {e : SlotEntry CapabilityPayload}
    (h : e.isOpen = false) : objectOf service e = none := by
  simp [objectOf, h]

theorem Capabilities.Keeps.objectOf (h : c.Keeps c')
    {service : CapabilityService} {p i j : ℕ} (hj : objectOf service (c.entry p i) = some j) :
    objectOf service (c'.entry p i) = none ∨ objectOf service (c'.entry p i) = some j := by
  rcases h p i (objectOf_eq_some.1 hj).1 with heq | hclosed
  · exact .inr (heq ▸ hj)
  · exact .inl (objectOf_of_closed hclosed)

theorem Capabilities.Released.keeps (h : c.Released c') : c.Keeps c' :=
  fun p i _ => (h p i).imp id fun h => h.2.1

theorem Capabilities.Opens.keeps {pid slot : ℕ}
    {payload : CapabilityPayload} (h : c.Opens pid slot payload c') : c.Keeps c' := by
  intro p i hopen
  rcases h.entry_cases p i with heq | ⟨rfl, rfl, -⟩
  · exact .inl heq
  · exact absurd (h.free.symm.trans hopen) (by simp)

theorem Shrink.released {v v' : ObjectView} (h : Shrink v v') :
    v.objects.caps.Released v'.objects.caps := by
  cases h with
  | release hp hrel => exact (releaseSlot_released hrel).1
  | assign assigned => exact fun p i => .inl rfl
  | touch ht => exact .refl _
  | bounce hr => exact .refl _
  | uncreate hi hs => exact .refl _
  | unmap hp hslot hne => exact .refl _

theorem Shrinks.released {v v' : ObjectView} (h : Shrinks v v') :
    v.objects.caps.Released v'.objects.caps := by
  induction h with
  | refl => exact .refl _
  | tail _ hstep ih => exact ih.trans hstep.released

theorem Kernel.Grows.keeps {v : ObjectView} (h : k.Grows v) :
    k.objects.caps.Keeps v.objects.caps := by
  cases h with
  | service valid rights assigned opens => exact opens.keeps
  | file valid id_pos storage opens => exact opens.keeps
  | ipc valid id_pos assigned opens => exact opens.keeps
  | create created opened =>
    cases opened with
    | opened hpos hlt hassigned hr opens => exact opens.keeps
  | grant resolved surface opened =>
    cases opened with
    | opened hpos hlt hassigned hr opens => exact opens.keeps
  | map resolved valid used slot_lt free retained => exact (Released.refl _).keeps

/-- No step changes what an open slot holds: a slot stays as it is, or is closed. -/
theorem Kernel.step_keeps (k : Kernel) (e : Event) :
    k.objects.caps.Keeps (k.step e).objects.caps :=
  (k.step_view e).elim (fun h => h.released.keeps) fun h => h.keeps

def Capabilities.Numbered (c : Capabilities) : Prop :=
  ∀ p i, (c.entry p i).isOpen = true →
    (c.entry p i).payload.service = .file ∨ (c.entry p i).payload.service = .ipc →
      (c.entry p i).payload.objectId ≠ 0

theorem Capabilities.Opens.numbered {pid slot : ℕ}
    {payload : CapabilityPayload} (h : c.Opens pid slot payload c') (hc : c.Numbered)
    (hpay : payload.service = .file ∨ payload.service = .ipc → payload.objectId ≠ 0) :
    c'.Numbered := by
  intro p i hopen hservice
  rcases h.entry_cases p i with heq | ⟨-, -, -, heq⟩
  · rw [heq] at hopen hservice ⊢
    exact hc p i hopen hservice
  · rw [heq] at hservice ⊢
    exact hpay hservice

theorem Kernel.Grows.numbered {v : ObjectView} (h : k.Grows v)
    (hk : k.objects.caps.Numbered) : v.objects.caps.Numbered := by
  cases h with
  | @service number slot c valid rights assigned opens =>
    refine opens.numbered hk fun hservice => absurd ?_ rights
    have hnumber : number = 5 ∨ number = 6 := by
      unfold CapabilityService.ofNumber at hservice
      split at hservice <;> simp_all
    rcases hnumber with rfl | rfl <;> rfl
  | file valid id_pos storage opens => exact opens.numbered hk fun _ => id_pos
  | ipc valid id_pos assigned opens => exact opens.numbered hk fun _ => id_pos
  | create created opened =>
    cases opened with
    | opened hpos hlt hassigned hr opens => exact opens.numbered hk (by simp)
  | grant resolved surface opened =>
    cases opened with
    | opened hpos hlt hassigned hr opens => exact opens.numbered hk (by simp)
  | map resolved valid used slot_lt free retained => exact hk

theorem Kernel.runFrom_numbered (b : BootInfo) (events : List Event) :
    (runFrom b events).objects.caps.Numbered := by
  refine Machine.run_inv step (I := fun k => k.objects.caps.Numbered) (fun k e hk => ?_) events _
    (fun p i h => by cases h)
  rcases k.step_view e with hs | hg
  · intro p i hopen
    rcases hs.released p i with heq | ⟨-, hclosed, -⟩
    · have heq' : (k.step e).objects.caps.entry p i = k.objects.caps.entry p i := heq
      rw [heq'] at hopen ⊢
      exact hk p i hopen
    · exact absurd (hclosed.symm.trans hopen) (by simp)
  · exact hg.numbered hk

end DemonOS
