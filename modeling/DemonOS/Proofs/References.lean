import DemonOS.Proofs.Objects

/-!
# Reference counts of surfaces

In every state of every run a surface's reference count is the number of open capabilities and of
mappings that name it, and the surface is active exactly when there are any (`RefInv`). So a slot
of the surface table comes to life again only when nothing names it, and whatever names a surface
names the one it was opened or mapped for (`surface_references_counted`).
-/

namespace DemonOS

variable {i id pid slot : ℕ} {k : Kernel} {v : ObjectView}

/-! ## Counting -/

def capWeight (id : ℕ) (e : SlotEntry CapabilityPayload) : ℕ :=
  if e.isOpen = true ∧ e.payload.service = .surface ∧ e.payload.objectId = id then 1 else 0

def mapWeight (id mapped : ℕ) : ℕ := if mapped = id then 1 else 0

def Capabilities.surfaceCount (c : Capabilities) (id : ℕ) : ℕ :=
  Table.total processLimit (Table.total slotsPerProcess (capWeight id)) c.entry

def mappedCount (mapped : ℕ → ℕ → ℕ) (id : ℕ) : ℕ :=
  Table.total processLimit (Table.total userSurfaceMapSlots (mapWeight id)) mapped

theorem Capabilities.surfaceCount_setEntry {c : Capabilities}
    (hpid : pid < processLimit) (hslot : slot < slotsPerProcess) (e : SlotEntry CapabilityPayload)
    (id : ℕ) : (c.setEntry pid slot e).surfaceCount id + capWeight id (c.entry pid slot)
      = c.surfaceCount id + capWeight id e := by
  have h : (c.setEntry pid slot e).entry
      = Function.update c.entry pid (Function.update (c.entry pid) slot e) := by
    funext p i
    rw [entry_setEntry]
    rcases eq_or_ne p pid with rfl | hp
    · rcases eq_or_ne i slot with rfl | hi <;> simp [*]
    · simp [hp]
  unfold surfaceCount
  rw [h]
  exact Table.total_total_update hpid hslot _ _ _

theorem mappedCount_update2 {m : ℕ → ℕ → ℕ} (hpid : pid < processLimit)
    (hslot : slot < userSurfaceMapSlots) (v id : ℕ) :
    mappedCount (UserMemory.update2 m pid slot v) id + mapWeight id (m pid slot)
      = mappedCount m id + mapWeight id v :=
  Table.total_total_update hpid hslot _ _ _

theorem Capabilities.surfaceCount_pos {c : Capabilities}
    (hpid : pid < processLimit) (hslot : slot < slotsPerProcess)
    (h : capWeight i (c.entry pid slot) = 1) : 0 < c.surfaceCount i := by
  have hrow := Table.le_total hpid (Table.total slotsPerProcess (capWeight i)) c.entry
  have hcell := Table.le_total hslot (capWeight i) (c.entry pid)
  unfold surfaceCount
  omega

theorem mappedCount_pos {m : ℕ → ℕ → ℕ}
    (hpid : pid < processLimit) (hslot : slot < userSurfaceMapSlots) :
    0 < mappedCount m (m pid slot) := by
  have hrow := Table.le_total hpid
    (Table.total userSurfaceMapSlots (mapWeight (m pid slot))) m
  have hcell := Table.le_total hslot (mapWeight (m pid slot)) (m pid)
  have hone : mapWeight (m pid slot) (m pid slot) = 1 := if_pos rfl
  unfold mappedCount
  omega

/-! ## The surfaces, counted -/

def Surfaces.Counted (s : Surfaces) (n : ℕ → ℕ) : Prop :=
  ∀ i < surfaceLimit, (s.objects i).references = n i
    ∧ ((s.objects i).active = true ↔ 0 < n i)

namespace Surfaces.Counted

variable {s s' : Surfaces} {n n' : ℕ → ℕ}

theorem congr (h : s.Counted n) (hn : ∀ i < surfaceLimit, n' i = n i) : s.Counted n' :=
  fun i hi => by rw [hn i hi]; exact h i hi

theorem touch (h : s.Counted n) (ht : s.Touches s') : s'.Counted n :=
  fun i hi => by rw [ht.active, ht.references]; exact h i hi

theorem update (h : s.Counted n) {i m : ℕ} {o : SurfaceObject}
    (hs : s'.objects = Function.update s.objects i o) (hr : o.references = m)
    (ha : o.active = true ↔ 0 < m) : s'.Counted (Function.update n i m) := by
  intro j hj
  rw [hs]
  rcases eq_or_ne j i with rfl | hne
  · simpa using ⟨hr, ha⟩
  · simpa [hne] using h j hj

theorem retain (h : s.Counted n) (hr : s.surfaceRetain id = some s')
    (hn : ∀ i < surfaceLimit, n' i = n i + if i + 1 = id then 1 else 0) : s'.Counted n' := by
  obtain ⟨i, hi, rfl⟩ := Surfaces.surfaceRetain_spec hr
  obtain ⟨rfl, hlt, hactive⟩ := Surfaces.resolve_eq_some.1 hi
  refine (h.update (i := i) (m := n i + 1) rfl ?_ ?_).congr fun j hj => ?_
  · simp [(h i hlt).1]
  · simpa using hactive
  · rw [hn j hj]
    rcases eq_or_ne j i with rfl | hne <;> simp [*]

/-- A reference less, for what named the surface and does so no more. -/
theorem release (h : s.Counted n) (hid : id ≠ 0)
    (hn : ∀ i < surfaceLimit, n i = n' i + if i + 1 = id then 1 else 0) :
    ((s.surfaceRelease id).getD s).Counted n' := by
  obtain ⟨i, rfl⟩ := Nat.exists_eq_succ_of_ne_zero hid
  by_cases hi : i < surfaceLimit
  · obtain ⟨href, hact⟩ := h i hi
    have hni := hn i hi
    rw [if_pos rfl] at hni
    have hactive := hact.2 (by omega)
    have hres : s.resolve (i + 1) = some i := Surfaces.resolve_eq_some.2 ⟨rfl, hi, hactive⟩
    have hupdate : ((s.surfaceRelease (i + 1)).getD s).Counted (Function.update n i (n' i)) := by
      unfold Surfaces.surfaceRelease
      simp only [hres]
      split_ifs with h0 h1
      · omega
      · rw [Option.getD_some]
        refine h.update (o := {}) rfl ?_ ?_
        · change 0 = n' i
          omega
        · simp only [Bool.false_eq_true, false_iff]
          omega
      · rw [Option.getD_some]
        refine h.update rfl ?_ ?_
        · change (s.objects i).references - 1 = n' i
          omega
        · simp only [hactive, true_iff]
          omega
    refine hupdate.congr fun j hj => ?_
    have := hn j hj
    rcases eq_or_ne j i with rfl | hne
    · simp
    · simp [hne] at this ⊢
      exact this.symm
  · have hres : s.resolve (i + 1) = none := by
      unfold Surfaces.resolve
      rw [if_pos (by omega)]
    simp only [Surfaces.surfaceRelease, hres, Option.getD_none]
    refine h.congr fun j hj => ?_
    rw [hn j hj, if_neg (by omega), Nat.add_zero]

theorem bounce (h : s.Counted n) (hr : s.surfaceRetain id = some s') :
    ((s'.surfaceRelease id).getD s').Counted n := by
  obtain ⟨i, hi, -⟩ := Surfaces.surfaceRetain_spec hr
  obtain ⟨rfl, -⟩ := Surfaces.resolve_eq_some.1 hi
  exact (h.retain hr fun _ _ => rfl).release (Nat.succ_ne_zero i) fun _ _ => rfl

theorem uncreate (h : s.Counted n) (hi : (s.objects i).active = false)
    (hs : s'.objects = Function.update s.objects i {}) : s'.Counted n := by
  refine (h.update hs (m := 0) rfl (by simp)).congr fun j hj => ?_
  rcases eq_or_ne j i with rfl | hne
  · have := (h j hj).2
    simp only [hi, Bool.false_eq_true, false_iff, not_lt, Nat.le_zero] at this
    simpa using this
  · simp [hne]

theorem create (h : s.Counted n) {ownerPid width height id : ℕ} {s₁ : Surfaces}
    (hc : s.surfaceCreate ownerPid width height = some (id, s₁))
    (hr : s₁.surfaceRetain id = some s')
    (hn : ∀ i < surfaceLimit, n' i = n i + if i + 1 = id then 1 else 0) : s'.Counted n' := by
  obtain ⟨i, offset, rfl, hi, hinactive, -, -, -, -, -, -, rfl⟩ := Surfaces.surfaceCreate_spec hc
  obtain ⟨j, hj, hs'⟩ := Surfaces.surfaceRetain_spec hr
  obtain ⟨hij, -, -⟩ := Surfaces.resolve_eq_some.1 hj
  obtain rfl : i = j := by omega
  have hzero : n i = 0 := by
    have := (h i hi).2
    simp only [hinactive, Bool.false_eq_true, false_iff, not_lt, Nat.le_zero] at this
    exact this
  have hobjects := congrArg Surfaces.objects hs'
  simp only [Surfaces.setObject_objects, Function.update_self, Function.update_idem] at hobjects
  refine (h.update (m := 1) hobjects rfl (by simp)).congr fun j hj => ?_
  rcases eq_or_ne j i with rfl | hne <;> simp [*]

end Surfaces.Counted

/-! ## The invariant -/

namespace ObjectView

def holders (v : ObjectView) (i : ℕ) : ℕ :=
  v.objects.caps.surfaceCount (i + 1) + mappedCount v.mapped (i + 1)

/-- Every surface is kept by as many references as there are capabilities and mappings of it. -/
def RefInv (v : ObjectView) : Prop := v.objects.surfaces.Counted v.holders

end ObjectView

open ObjectView

theorem surfaceCount_opens {c c' : Capabilities} {payload : CapabilityPayload}
    (hpid : pid < processLimit) (h : c.Opens pid slot payload c') (id : ℕ) :
    c'.surfaceCount id = c.surfaceCount id
      + if payload.service = .surface ∧ payload.objectId = id then 1 else 0 := by
  have hcount := Capabilities.surfaceCount_setEntry (c := c) hpid h.slot_lt
    { c.entry pid slot with isOpen := true, payload := payload } id
  have hzero : capWeight id (c.entry pid slot) = 0 := by simp [capWeight, h.free]
  rw [← h.eq, hzero] at hcount
  simpa [capWeight] using hcount

theorem Shrink.refInv {v v' : ObjectView} (h : Shrink v v') (hv : v.RefInv) : v'.RefInv := by
  cases h with
  | @release p slot o hp hrel =>
    obtain ⟨hslot, hopen, ⟨e, he, -, hcaps⟩, hsurf⟩ := Objects.releaseSlot_spec hrel
    have hcount : ∀ id, v.objects.caps.surfaceCount id
        = o.caps.surfaceCount id + capWeight id (v.objects.caps.entry p slot) := by
      intro id
      have hset := Capabilities.surfaceCount_setEntry hp hslot e (c := v.objects.caps) id
      have hzero : capWeight id e = 0 := by simp [capWeight, he]
      rw [← hcaps, hzero] at hset
      omega
    unfold ObjectView.RefInv
    rw [hsurf]
    split_ifs with hs
    · refine hv.release hs.2 fun i _ => ?_
      have := hcount (i + 1)
      simp only [capWeight, hopen, hs.1, true_and, eq_comm (b := i + 1)] at this
      simp only [ObjectView.holders, this]
      omega
    · refine hv.congr fun i _ => ?_
      have hw : capWeight (i + 1) (v.objects.caps.entry p slot) = 0 := by
        unfold capWeight
        rw [if_neg]
        rintro ⟨-, hservice, hid⟩
        exact hs ⟨hservice, by omega⟩
      simp only [ObjectView.holders, hcount (i + 1), hw, Nat.add_zero]
  | assign assigned => exact hv
  | touch ht => exact Surfaces.Counted.touch hv ht
  | bounce hr => exact Surfaces.Counted.bounce hv hr
  | uncreate hi hs => exact Surfaces.Counted.uncreate hv hi hs
  | @unmap p slot hp hslot hne =>
    refine Surfaces.Counted.release hv hne fun i _ => ?_
    have := mappedCount_update2 hp hslot 0 (m := v.mapped) (i + 1)
    simp only [mapWeight, eq_comm (b := i + 1)] at this
    simp only [ObjectView.holders, Objects.withSurfaces]
    simp at this
    omega

theorem Kernel.Grows.refInv (h : k.Grows v)
    (hk : k.view.RefInv) : v.RefInv := by
  cases h with
  | @service number slot c valid rights assigned opens =>
    refine Surfaces.Counted.congr hk fun i _ => ?_
    simp [ObjectView.holders, Kernel.view, surfaceCount_opens valid.2 opens]
  | @file handle id slot c valid id_pos storage opens =>
    refine Surfaces.Counted.congr hk fun i _ => ?_
    simp [ObjectView.holders, Kernel.view, surfaceCount_opens valid.2 opens]
  | @ipc id slot rights c valid id_pos assigned opens =>
    refine Surfaces.Counted.congr hk fun i _ => ?_
    simp [ObjectView.holders, Kernel.view, surfaceCount_opens valid.2 opens]
  | create created opened =>
    cases opened with
    | opened hpos hlt hassigned hr opens =>
      refine Surfaces.Counted.create hk created hr fun i _ => ?_
      simp only [ObjectView.holders, Kernel.view, surfaceCount_opens hlt opens, true_and,
        eq_comm (a := i + 1), Objects.withSurfaces]
      omega
  | grant resolved surface opened =>
    cases opened with
    | opened hpos hlt hassigned hr opens =>
      refine Surfaces.Counted.retain hk hr fun i _ => ?_
      simp only [ObjectView.holders, Kernel.view, surfaceCount_opens hlt opens, true_and,
        eq_comm (a := i + 1)]
      omega
  | @map handle id slot s resolved valid used slot_lt free retained =>
    refine Surfaces.Counted.retain hk retained fun i _ => ?_
    have := mappedCount_update2 valid.2 slot_lt id (m := k.mem.mappedSurface) (i + 1)
    simp only [mapWeight, free] at this
    simp only [ObjectView.holders, Kernel.view, Objects.withSurfaces, eq_comm (a := i + 1)]
    simp at this
    omega

/-! ## Holders -/

/-- What can name a surface: a slot of a capability table or a mapping slot of a process. -/
inductive SurfaceHolder where
  | capability (pid : Fin processLimit) (slot : Fin slotsPerProcess)
  | mapping (pid : Fin processLimit) (slot : Fin userSurfaceMapSlots)

namespace ObjectView

def mappedObject (mapped : ℕ) : Option ℕ := if mapped = 0 then none else some (mapped - 1)

def names (v : ObjectView) : SurfaceHolder → Option ℕ
  | .capability pid slot => objectOf .surface (v.objects.caps.entry pid slot)
  | .mapping pid slot => mappedObject (v.mapped pid slot)

theorem mappedObject_eq_some {mapped i : ℕ} : mappedObject mapped = some i ↔ mapped = i + 1 := by
  unfold mappedObject
  split_ifs with h
  · simp [h]
  · simp only [Option.some.injEq]
    omega

theorem RefInv.named_active (hv : v.RefInv) {a : SurfaceHolder}
    (hi : i < surfaceLimit) (ha : v.names a = some i) :
    (v.objects.surfaces.objects i).active = true := by
  refine (hv i hi).2.2 ?_
  unfold holders
  cases a with
  | capability pid slot =>
    obtain ⟨hopen, hservice, hid⟩ := objectOf_eq_some.1 ha
    have := Capabilities.surfaceCount_pos pid.2 slot.2 (c := v.objects.caps) (i := i + 1)
      (if_pos ⟨hopen, hservice, hid⟩)
    omega
  | mapping pid slot =>
    have hmapped := mappedObject_eq_some.1 ha
    have := mappedCount_pos pid.2 slot.2 (m := v.mapped)
    rw [hmapped] at this
    omega

def Fades (v v' : ObjectView) : Prop := ∀ a, v'.names a = v.names a ∨ v'.names a = none

theorem Fades.trans {v₁ v₂ v₃ : ObjectView} (h : v₁.Fades v₂) (h' : v₂.Fades v₃) :
    v₁.Fades v₃ := by
  intro a
  rcases h' a with h₂ | h₂
  · exact (h a).imp (h₂.trans ·) (h₂.trans ·)
  · exact .inr h₂

end ObjectView

theorem Shrink.fades {v v' : ObjectView} (h : Shrink v v') : v.Fades v' := by
  have hcaps := h.released
  rintro (⟨pid, slot⟩ | ⟨pid, slot⟩)
  · rcases hcaps pid slot with heq | ⟨-, hclosed, -⟩
    · exact .inl (congrArg (objectOf .surface) heq)
    · exact .inr (objectOf_of_closed hclosed)
  · cases h with
    | @unmap p s hp hs hne =>
      simp only [ObjectView.names, UserMemory.update2]
      rcases eq_or_ne (pid : ℕ) p with rfl | hp
      · rcases eq_or_ne (slot : ℕ) s with rfl | hs
        · exact .inr (by simp [ObjectView.mappedObject])
        · exact .inl (by simp [hs])
      · exact .inl (by simp [hp])
    | _ => exact .inl rfl

theorem Shrinks.fades {v v' : ObjectView} (h : Shrinks v v') : v.Fades v' := by
  induction h with
  | refl => exact fun a => .inl rfl
  | tail _ hstep ih => exact ih.trans hstep.fades

theorem Capabilities.Opens.names {c c' : Capabilities}
    {payload : CapabilityPayload} (h : c.Opens pid slot payload c')
    (service : CapabilityService) (p s : ℕ) :
    objectOf service (c'.entry p s) = objectOf service (c.entry p s)
      ∨ objectOf service (c.entry p s) = none ∧ ∀ i, objectOf service (c'.entry p s) = some i →
        payload.service = service ∧ payload.objectId = i + 1 := by
  rcases h.entry_cases p s with heq | ⟨rfl, rfl, -, hpay⟩
  · exact .inl (by rw [heq])
  · exact .inr ⟨objectOf_of_closed h.free, fun i hi => hpay ▸ (objectOf_eq_some.1 hi).2⟩

theorem surfaceRetain_lt {s s' : Surfaces} (h : s.surfaceRetain (i + 1) = some s') :
    i < surfaceLimit := by
  obtain ⟨j, hj, -⟩ := Surfaces.surfaceRetain_spec h
  obtain ⟨hij, hlt, -⟩ := Surfaces.resolve_eq_some.1 hj
  omega

theorem Kernel.Grows.names (h : k.Grows v) (a : SurfaceHolder) :
    v.names a = k.view.names a
      ∨ k.view.names a = none ∧ ∀ i, v.names a = some i → i < surfaceLimit := by
  have hcap : ∀ {pid slot id : ℕ} {rights : BitVec 32} {c : Capabilities} {s s' : Surfaces},
      k.objects.caps.Opens pid slot
        { service := .surface, rights := rights, objectId := id } c →
      s.surfaceRetain id = some s' → ∀ p s,
      objectOf .surface (c.entry p s) = objectOf .surface (k.objects.caps.entry p s)
        ∨ objectOf .surface (k.objects.caps.entry p s) = none
          ∧ ∀ i, objectOf .surface (c.entry p s) = some i → i < surfaceLimit := by
    intro pid slot id rights c s s' hopen hretain p q
    refine (hopen.names .surface p q).imp_right fun h => ⟨h.1, fun i hi => ?_⟩
    obtain ⟨-, hid⟩ := h.2 i hi
    rw [show id = i + 1 from hid] at hretain
    exact surfaceRetain_lt hretain
  cases h with
  | service valid rights assigned opens =>
    cases a with
    | capability pid slot =>
      exact (opens.names .surface pid slot).imp_right fun h =>
        ⟨h.1, fun i hi => absurd (h.2 i hi).2 (Nat.succ_ne_zero i).symm⟩
    | mapping pid slot => exact .inl rfl
  | file valid id_pos storage opens =>
    cases a with
    | capability pid slot =>
      exact (opens.names .surface pid slot).imp_right fun h =>
        ⟨h.1, fun i hi => absurd (h.2 i hi).1 (by simp)⟩
    | mapping pid slot => exact .inl rfl
  | ipc valid id_pos assigned opens =>
    cases a with
    | capability pid slot =>
      exact (opens.names .surface pid slot).imp_right fun h =>
        ⟨h.1, fun i hi => absurd (h.2 i hi).1 (by simp)⟩
    | mapping pid slot => exact .inl rfl
  | create created opened =>
    cases opened with
    | opened hpos hlt hassigned hr opens =>
      cases a with
      | capability pid slot => exact hcap opens hr pid slot
      | mapping pid slot => exact .inl rfl
  | grant resolved surface opened =>
    cases opened with
    | opened hpos hlt hassigned hr opens =>
      cases a with
      | capability pid slot => exact hcap opens hr pid slot
      | mapping pid slot => exact .inl rfl
  | @map handle id s _ resolved valid used slot_lt free retained =>
    cases a with
    | capability pid slot => exact .inl rfl
    | mapping pid slot =>
      simp only [ObjectView.names, UserMemory.update2, Kernel.view]
      rcases eq_or_ne (pid : ℕ) k.current with hp | hp
      · rcases eq_or_ne (slot : ℕ) s with hs | hs
        · refine .inr ⟨by rw [hp, hs, free]; rfl, fun i hi => ?_⟩
          rw [hp, hs, Function.update_self, Function.update_self,
            ObjectView.mappedObject_eq_some] at hi
          exact surfaceRetain_lt (hi ▸ retained)
        · exact .inl (by rw [hp]; simp [hs])
      · exact .inl (by simp [hp])

namespace Kernel

def surfaceWatch : Instances.Watch Kernel ℕ SurfaceHolder where
  live := fun k i => (k.objects.surfaces.objects i).active
  names := fun k => k.view.names

def surfaceHistory (b : BootInfo) (events : List Event) : Instances.History ℕ SurfaceHolder :=
  (Machine.run (surfaceWatch.traced step) (fresh b, {}) events).2

structure SurfaceInv (t : Kernel × Instances.History ℕ SurfaceHolder) : Prop where
  counted : t.1.view.RefInv
  inRange : ∀ a i, t.1.view.names a = some i → i < surfaceLimit
  faithful : surfaceWatch.Faithful t

theorem fresh_surfaceInv (b : BootInfo) : SurfaceInv (fresh b, {}) := by
  have hobjects : ∀ i, (fresh b).objects.surfaces.objects i = {} := by
    intro i
    simp only [fresh, Surfaces.freshArena, Surfaces.surfacesInit]
    split_ifs
    · rfl
    · simp
  have hnames : ∀ a, (fresh b).view.names a = none := by
    rintro (⟨pid, slot⟩ | ⟨pid, slot⟩) <;> rfl
  refine ⟨fun i hi => ?_, fun a i ha => ?_, fun a i ha => ?_⟩
  · have hcaps : (fresh b).objects.caps.surfaceCount (i + 1) = 0 :=
      Table.total_eq_zero fun p _ => Table.total_eq_zero fun s _ => rfl
    have hmapped : mappedCount (fresh b).mem.mappedSurface (i + 1) = 0 :=
      Table.total_eq_zero fun p _ => Table.total_eq_zero fun s _ => rfl
    simp [ObjectView.holders, view, hobjects, hcaps, hmapped]
  · exact absurd (hnames a) (by simp [ha])
  · exact absurd ((hnames a).symm.trans ha) (by simp)

theorem step_names (k : Kernel) (e : Event) (a : SurfaceHolder) :
    (k.step e).view.names a = k.view.names a ∨ (k.step e).view.names a = none
      ∨ k.view.names a = none
        ∧ ∀ i, (k.step e).view.names a = some i → i < surfaceLimit := by
  rcases k.step_view e with hs | hg
  · exact (hs.fades a).imp_right .inl
  · exact (hg.names a).imp_right .inr

theorem step_refInv (h : k.view.RefInv) (e : Event) : (k.step e).view.RefInv := by
  rcases k.step_view e with hs | hg
  · exact Relation.ReflTransGen.head_induction_on hs (fun h => h)
      (fun hstep _ ih hv => ih (hstep.refInv hv)) h
  · exact hg.refInv h

theorem step_inRange (h : ∀ a i, k.view.names a = some i → i < surfaceLimit)
    (e : Event) : ∀ a i, (k.step e).view.names a = some i → i < surfaceLimit := by
  intro a i ha
  rcases k.step_names e a with heq | hnone | ⟨-, hlt⟩
  · exact h a i (heq ▸ ha)
  · exact absurd (hnone.symm.trans ha) (by simp)
  · exact hlt i ha

theorem step_surfaceInv (t : Kernel × Instances.History ℕ SurfaceHolder) (e : Event)
    (h : SurfaceInv t) : SurfaceInv (surfaceWatch.traced step t e) := by
  obtain ⟨k, history⟩ := t
  refine ⟨step_refInv h.counted e, step_inRange h.inRange e,
    h.faithful.next (fun a i ha => ?_) fun i hdead _ a ha => ?_⟩
  · rcases k.step_names e a with heq | hnone | ⟨hnone, -⟩
    · exact .inr (heq.trans ha)
    · exact .inl hnone
    · exact absurd (hnone.symm.trans ha) (by simp)
  · have hactive := h.counted.named_active (h.inRange a i ha) ha
    exact absurd (hdead.symm.trans hactive) (by simp)

/-- In every state of every run each surface has as many references as there are open SURFACE
capabilities and mapped entries of it, and is active exactly when there are any. What names a
surface names an active one, and the one it was opened or mapped for. -/
theorem surface_references_counted (b : BootInfo) (events : List Event) :
    (∀ i < surfaceLimit,
      ((runFrom b events).objects.surfaces.objects i).references
          = (runFrom b events).objects.caps.surfaceCount (i + 1)
            + mappedCount (runFrom b events).mem.mappedSurface (i + 1)
        ∧ (((runFrom b events).objects.surfaces.objects i).active = true
          ↔ 0 < ((runFrom b events).objects.surfaces.objects i).references))
    ∧ ∀ a i, surfaceWatch.names (runFrom b events) a = some i →
      i < surfaceLimit ∧ surfaceWatch.live (runFrom b events) i = true
        ∧ (surfaceHistory b events).issued a = (surfaceHistory b events).born i := by
  have h : SurfaceInv (Machine.run (surfaceWatch.traced step) (fresh b, {}) events) :=
    Machine.run_inv _ step_surfaceInv events _ (fresh_surfaceInv b)
  have hrun : (Machine.run (surfaceWatch.traced step) (fresh b, {}) events).1 = runFrom b events :=
    surfaceWatch.run_traced_fst step events _
  obtain ⟨hcount, hrange, hfaithful⟩ := h
  rw [hrun] at hcount hrange
  refine ⟨fun i hi => ?_, fun a i ha => ?_⟩
  · obtain ⟨hrefs, hactive⟩ := hcount i hi
    exact ⟨hrefs, hrefs ▸ hactive⟩
  · refine ⟨hrange a i ha, hcount.named_active (hrange a i ha) ha, hfaithful a i ?_⟩
    rw [hrun]
    exact ha

end Kernel

end DemonOS
