import DemonOS.Proofs.Processes
import DemonOS.Proofs.References

/-!
# Rights on surfaces

Only a process that created a surface may write to it. A surface's creator is a process and not
its slot number, so the run also counts how often each slot has been given to a new process
(`Creators`). Grants hand on READ and QUERY alone, and an open slot keeps its rights
(`rights_never_grow`).
-/

namespace DemonOS

namespace Kernel

open Scheduler

/-- How often each process slot has been filled, and for each surface the slot of the process that
created it with that count. -/
structure Creators where
  lives : ℕ → ℕ := fun _ => 0
  creator : ℕ → ℕ × ℕ := fun _ => (0, 0)

/-- The creators after a step from `k` to `k'`. -/
def Creators.next (g : Creators) (k k' : Kernel) : Creators where
  lives := fun p =>
    if k.sched.state p = .unused ∧ k'.sched.state p ≠ .unused then g.lives p + 1 else g.lives p
  creator := fun i =>
    if (k.objects.surfaces.objects i).active = false
        ∧ (k'.objects.surfaces.objects i).active = true then (k.current, g.lives k.current)
    else g.creator i

def stepCreators (t : Kernel × Creators) (e : Event) : Kernel × Creators :=
  (t.1.step e, t.2.next t.1 (t.1.step e))

def creators (b : BootInfo) (events : List Event) : Creators :=
  (Machine.run stepCreators (fresh b, {}) events).2

theorem run_stepCreators_fst :
    ∀ (events : List Event) (t : Kernel × Creators),
      (Machine.run stepCreators t events).1 = Machine.run step t.1 events
  | [], _ => rfl
  | e :: events, t => run_stepCreators_fst events (stepCreators t e)

def MayWrite (k : Kernel) (p slot i : ℕ) : Prop :=
  objectOf .surface (k.objects.caps.entry p slot) = some i
    ∧ (k.objects.caps.entry p slot).payload.rights &&& rightWrite ≠ 0#32

structure WriteInv (t : Kernel × Creators) : Prop where
  processes : ProcInv t.1
  counted : t.1.view.RefInv
  inRange : ∀ a i, t.1.view.names a = some i → i < surfaceLimit
  writers : ∀ p slot i, MayWrite t.1 p slot i → t.2.creator i = (p, t.2.lives p)

theorem fresh_writeInv (b : BootInfo) : WriteInv (fresh b, {}) := by
  obtain ⟨hcounted, hrange, -⟩ := fresh_surfaceInv b
  refine ⟨fresh_procInv b, hcounted, hrange, fun p slot i h => ?_⟩
  cases (objectOf_eq_some.1 h.1).1

theorem not_write_read_query : (rightRead ||| rightQuery) &&& rightWrite = 0#32 := by decide

theorem and_eq_left_of_and_not {a m : BitVec 32} (h : a &&& ~~~m = 0#32) : a &&& m = a := by
  ext i hi
  have hbit := congrArg (fun v : BitVec 32 => v.getLsbD i) h
  simp only [BitVec.getLsbD_and, BitVec.getLsbD_not, hi, decide_true, Bool.true_and,
    BitVec.getLsbD_zero, Bool.and_eq_false_imp, Bool.not_eq_false'] at hbit
  rw [BitVec.getElem_and]
  simpa [BitVec.getLsbD_eq_getElem hi] using hbit

theorem Grows.mayWrite {k : Kernel} {v : ObjectView} (h : k.Grows v) {p slot i : ℕ}
    (hobject : objectOf .surface (v.objects.caps.entry p slot) = some i)
    (hwrite : (v.objects.caps.entry p slot).payload.rights &&& rightWrite ≠ 0#32) :
    v.objects.caps.entry p slot = k.objects.caps.entry p slot
      ∨ p = k.current ∧ (k.objects.surfaces.objects i).active = false := by
  obtain ⟨-, hservice, hid⟩ := objectOf_eq_some.1 hobject
  cases h with
  | service valid rights assigned opens =>
    refine (opens.entry_cases p slot).imp_right fun ⟨_, _, _, hpay⟩ => ?_
    rw [hpay] at hid
    cases hid
  | file valid id_pos storage opens =>
    refine (opens.entry_cases p slot).imp_right fun ⟨_, _, _, hpay⟩ => ?_
    rw [hpay] at hservice
    cases hservice
  | ipc valid id_pos assigned opens =>
    refine (opens.entry_cases p slot).imp_right fun ⟨_, _, _, hpay⟩ => ?_
    rw [hpay] at hservice
    cases hservice
  | create created opened =>
    cases opened with
    | opened hpos hlt hassigned hr opens =>
      refine (opens.entry_cases p slot).imp_right fun ⟨hp, _, _, hpay⟩ => ⟨hp, ?_⟩
      obtain ⟨j, -, rfl, -, hinactive, -⟩ := Surfaces.surfaceCreate_spec created
      rw [hpay] at hid
      obtain rfl : j = i := Nat.succ.inj hid
      exact hinactive
  | grant resolved surface opened =>
    cases opened with
    | opened hpos hlt hassigned hr opens =>
      refine (opens.entry_cases p slot).imp_right fun ⟨_, _, _, hpay⟩ => ?_
      rw [hpay] at hwrite
      exact absurd not_write_read_query hwrite
  | map resolved valid used slot_lt free retained => exact .inl rfl

theorem step_mayWrite {k : Kernel} {e : Event} {p slot i : ℕ} (h : MayWrite (k.step e) p slot i) :
    MayWrite k p slot i ∨ p = k.current ∧ k.Grows (k.step e).view
      ∧ (k.objects.surfaces.objects i).active = false := by
  have hsame : (k.step e).objects.caps.entry p slot = k.objects.caps.entry p slot →
      MayWrite k p slot i := by
    intro heq
    unfold MayWrite at h ⊢
    rwa [heq] at h
  rcases k.step_view e with hs | hg
  · rcases hs.released p slot with heq | ⟨-, hclosed, -⟩
    · exact .inl (hsame heq)
    · exact absurd (hclosed.symm.trans (objectOf_eq_some.1 h.1).1) (by simp)
  · rcases hg.mayWrite h.1 h.2 with heq | ⟨hp, hinactive⟩
    · exact .inl (hsame heq)
    · exact .inr ⟨hp, hg, hinactive⟩

theorem step_writeInv (t : Kernel × Creators) (e : Event) (h : WriteInv t) :
    WriteInv (stepCreators t e) := by
  obtain ⟨k, g⟩ := t
  have hproc : ProcInv (k.step e) := step_procInv h.processes e
  have hcounted : (k.step e).view.RefInv := step_refInv h.counted e
  have hrange := step_inRange h.inRange e
  refine ⟨hproc, hcounted, hrange, fun p slot i hw => ?_⟩
  obtain ⟨hopen, -⟩ := objectOf_eq_some.1 hw.1
  obtain ⟨hp, hslot, -⟩ := hproc.held p slot hopen
  simp only [stepCreators, Creators.next]
  rcases step_mayWrite hw with hold | ⟨rfl, hg, hinactive⟩
  · obtain ⟨-, -, hused⟩ := h.processes.held p slot (objectOf_eq_some.1 hold.1).1
    have hname : k.view.names (.capability ⟨p, hp.2⟩ ⟨slot, hslot⟩) = some i := hold.1
    have hactive := h.counted.named_active (h.inRange _ i hname) hname
    rw [if_neg fun hc => absurd (hc.1.symm.trans hactive) (by simp),
      if_neg fun hc => h.processes.loaded p hp hused hc.1]
    exact h.writers p slot i hold
  · have hname : (k.step e).view.names (.capability ⟨k.current, hp.2⟩ ⟨slot, hslot⟩) = some i :=
      hw.1
    have hactive := hcounted.named_active (hrange _ i hname) hname
    have hrun := h.processes.sched.running (hg.current_pos h.processes)
    rw [if_pos ⟨hinactive, hactive⟩, if_neg]
    rintro ⟨hunused, -⟩
    rw [current, hrun] at hunused
    cases hunused

/-- In every state of every run: an open slot with WRITE on a surface belongs to the process that
created the surface; a grant yields a SURFACE capability with rights its source has, among READ
and QUERY; and whatever happens next, an open slot keeps what it holds or is closed. -/
theorem rights_never_grow (b : BootInfo) (events : List Event) :
    (∀ p slot i, MayWrite (runFrom b events) p slot i →
      (creators b events).creator i = (p, (creators b events).lives p))
    ∧ (∀ sourcePid sourceHandle targetPid rights handle o,
      (runFrom b events).objects.capabilityGrant sourcePid sourceHandle targetPid rights
          = (some handle, o) →
        ∃ source slot,
          (runFrom b events).objects.caps.capabilityResolveObject sourcePid sourceHandle rights
            = some source
          ∧ source.service = .surface
          ∧ rights &&& (source.rights &&& (rightRead ||| rightQuery)) = rights
          ∧ (runFrom b events).objects.caps.Opens targetPid slot
              { service := .surface, rights := rights, objectId := source.objectId } o.caps)
    ∧ ∀ e p slot, ((runFrom b events).objects.caps.entry p slot).isOpen = true →
      ((runFrom b events).step e).objects.caps.entry p slot
          = (runFrom b events).objects.caps.entry p slot
        ∨ (((runFrom b events).step e).objects.caps.entry p slot).isOpen = false := by
  have h : WriteInv (Machine.run stepCreators (fresh b, {}) events) :=
    Machine.run_inv _ step_writeInv events _ (fresh_writeInv b)
  have hrun : (Machine.run stepCreators (fresh b, {}) events).1 = runFrom b events :=
    run_stepCreators_fst events _
  refine ⟨fun p slot i hw => h.writers p slot i (hrun.symm ▸ hw), ?_,
    fun e => (runFrom b events).step_keeps e⟩
  intro sourcePid sourceHandle targetPid rights handle o hgrant
  rcases Objects.capabilityGrant_spec (runFrom b events).objects sourcePid sourceHandle targetPid
    rights with hnone | ⟨source, hsource, hsurface, hrights, hopening⟩
  · rw [hnone] at hgrant
    cases hgrant
  · rw [hgrant] at hopening
    obtain ⟨_, -, -, -, -, hright⟩ := Capabilities.capabilityResolveObject_eq_some.1 hsource
    cases hopening with
    | @opened slot _ _ hpos hlt hassigned hr opens =>
      refine ⟨source, slot, hsource, hsurface, ?_, opens⟩
      rw [← BitVec.and_assoc, BitVec.and_comm rights source.rights, hright]
      exact and_eq_left_of_and_not hrights

end Kernel

end DemonOS
