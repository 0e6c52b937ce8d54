import DemonOS.Proofs.Processes

/-!
# Services and spawning

A process asks for the services of the process it spawns with a mask in a register, and the kernel
assigns that mask as it is. So what a process may hold is bounded by the mask it was spawned with
(`services_within_mask`), and by those of the processes it descends from only where every spawn on
the way asked for no more than its caller had been given.
-/

namespace DemonOS

namespace Kernel

open Scheduler

/-- For the process in each slot: the mask it was spawned with, then that of the process that
spawned it, and so on up to one the kernel started. -/
abbrev Lineage := ℕ → List (BitVec 32)

/-- The masks above a process that `e` creates. -/
def ancestry (g : Lineage) (k : Kernel) : Event → List (BitVec 32)
  | .syscall _ _ _ => g k.current
  | _ => []

def Lineage.next (g : Lineage) (k : Kernel) (e : Event) (k' : Kernel) : Lineage := fun p =>
  if k.sched.state p = .unused ∧ k'.sched.state p ≠ .unused then requested e :: ancestry g k e
  else g p

def stepLineage (t : Kernel × Lineage) (e : Event) : Kernel × Lineage :=
  (t.1.step e, t.2.next t.1 e (t.1.step e))

def lineage (b : BootInfo) (events : List Event) : Lineage :=
  (Machine.run stepLineage (fresh b, fun _ => []) events).2

theorem run_stepLineage_fst :
    ∀ (events : List Event) (t : Kernel × Lineage),
      (Machine.run stepLineage t events).1 = Machine.run step t.1 events
  | [], _ => rfl
  | e :: events, t => run_stepLineage_fst events (stepLineage t e)

def heldUnder : CapabilityService → CapabilityService
  | .file => .storage
  | service => service

def allows (m : BitVec 32) (service : CapabilityService) : Prop := m &&& service.bit ≠ 0#32

instance (m : BitVec 32) (service : CapabilityService) : Decidable (allows m service) :=
  inferInstanceAs (Decidable (_ ≠ _))

/-- What a slot has been assigned it was spawned with, and what it holds is in that mask. -/
structure ServiceInv (t : Kernel × Lineage) : Prop where
  processes : ProcInv t.1
  assigned : t.1.initialized = true → ∀ p, UserMemory.validPid p →
    t.1.objects.caps.assignedServices p ≠ 0#32 →
      (t.2 p).head? = some (t.1.objects.caps.assignedServices p)
  held : ∀ p slot, (t.1.objects.caps.entry p slot).isOpen = true →
    ∃ m, (t.2 p).head? = some m
      ∧ allows m (heldUnder (t.1.objects.caps.entry p slot).payload.service)

theorem Evolves.assigned {mask : BitVec 32} {k k' : Kernel} (h : Evolves mask k k') (p : ℕ) :
    k'.objects.caps.assignedServices p = k.objects.caps.assignedServices p
      ∨ k'.objects.caps.assignedServices p = 0#32
      ∨ k.sched.state p = .unused ∧ k'.objects.caps.assignedServices p = mask := by
  cases h with
  | same h => exact .inl (by rw [h.assigned])
  | wanes h hinv => exact (h.assigned p).imp_right .inl
  | spawns hinit hb h hinv =>
    rcases h.assigned p with heq | hz
    · rcases hb.assigned (p := p) with heq' | ⟨hunused, -, hmask⟩
      · exact .inl (heq.trans heq')
      · exact .inr (.inr ⟨hunused, heq.trans hmask⟩)
    · exact .inr (.inl hz)

theorem step_assigned {k : Kernel} (hk : ProcInv k) (e : Event)
    (hinit : (k.step e).initialized = true) (p : ℕ) (hp : UserMemory.validPid p) :
    (k.initialized = true
        ∧ (k.step e).objects.caps.assignedServices p = k.objects.caps.assignedServices p)
      ∨ (k.step e).objects.caps.assignedServices p = 0#32
      ∨ k.sched.state p = .unused
        ∧ (k.step e).objects.caps.assignedServices p = requested e := by
  by_cases hboot : ∃ image, e = .kernel (.init image)
  · obtain ⟨image, rfl⟩ := hboot
    have hkeep : k.step (.kernel (.init image)) = k ∨ k.initialized = false
        ∧ k.userspaceInit image = some (k.step (.kernel (.init image))) := by
      simp only [step, kernelCall]
      split_ifs with hu hi
      · exact .inl rfl
      · exact .inl rfl
      · cases h : k.userspaceInit image with
        | none => exact .inl rfl
        | some k' => exact .inr ⟨by simpa using hi, rfl⟩
    rcases hkeep with heq | ⟨hfalse, hspec⟩
    · rw [heq] at hinit ⊢
      exact .inl ⟨hinit, rfl⟩
    · exact .inr (userspaceInit_assigned hk hfalse hspec p hp)
  · simp only [not_exists] at hboot
    have hev := step_evolves hk.sched e hboot
    refine (hev.assigned p).imp_left fun heq => ⟨?_, heq⟩
    cases hev with
    | same h => exact h.initialized ▸ hinit
    | wanes h => exact h.initialized ▸ hinit
    | spawns hi => exact hi

/-- A slot opened is of a service its process has been assigned, or for a file, where the process
holds a STORAGE handle. -/
theorem Grows.allows {k : Kernel} {v : ObjectView} (h : k.Grows v) {p slot : ℕ}
    (hopen : (v.objects.caps.entry p slot).isOpen = true) :
    v.objects.caps.entry p slot = k.objects.caps.entry p slot
      ∨ UserMemory.validPid p
        ∧ (Kernel.allows (k.objects.caps.assignedServices p)
              (heldUnder (v.objects.caps.entry p slot).payload.service)
          ∨ (v.objects.caps.entry p slot).payload.service = .file
            ∧ ∃ s, (k.objects.caps.entry p s).isOpen = true
              ∧ (k.objects.caps.entry p s).payload.service = .storage) := by
  cases h with
  | @service number s c valid rights assigned opens =>
    refine (opens.entry_cases p slot).imp_right fun ⟨hp, _, _, hpay⟩ => ⟨hp ▸ valid, .inl ?_⟩
    rw [hpay, hp]
    have hfile : CapabilityService.ofNumber number ≠ .file := by
      intro hnumber
      have : number = 5 := by
        unfold CapabilityService.ofNumber at hnumber
        split at hnumber <;> first | rfl | cases hnumber
      subst this
      exact rights rfl
    unfold Kernel.allows heldUnder
    split
    · contradiction
    · exact assigned
  | file valid id_pos storage opens =>
    refine (opens.entry_cases p slot).imp_right fun ⟨hp, _, _, hpay⟩ => ⟨hp ▸ valid, .inr ⟨by rw [hpay], ?_⟩⟩
    unfold holds resolveObject at storage
    split at storage
    · cases storage
    · rename_i w hres
      obtain ⟨s, -, -, hs, hw, -⟩ := Capabilities.capabilityResolveObject_eq_some.1 hres
      split_ifs at storage with hservice
      · exact ⟨s, hp ▸ hs, by rw [hp, hw]; exact hservice⟩
      · cases storage
  | ipc valid id_pos assigned opens =>
    refine (opens.entry_cases p slot).imp_right fun ⟨hp, _, _, hpay⟩ => ⟨hp ▸ valid, .inl ?_⟩
    rw [hpay, hp]
    exact assigned
  | create created opened =>
    cases opened with
    | opened hpos hlt hassigned hr opens =>
      refine (opens.entry_cases p slot).imp_right fun ⟨hp, _, _, hpay⟩ => ⟨hp ▸ ⟨hpos, hlt⟩, .inl ?_⟩
      rw [hpay, hp]
      exact hassigned
  | grant resolved surface opened =>
    cases opened with
    | opened hpos hlt hassigned hr opens =>
      refine (opens.entry_cases p slot).imp_right fun ⟨hp, _, _, hpay⟩ => ⟨hp ▸ ⟨hpos, hlt⟩, .inl ?_⟩
      rw [hpay, hp]
      exact hassigned
  | map resolved valid used slot_lt free retained => exact .inl rfl

theorem step_serviceInv (t : Kernel × Lineage) (e : Event) (h : ServiceInv t) :
    ServiceInv (stepLineage t e) := by
  obtain ⟨k, g⟩ := t
  have hproc : ProcInv (k.step e) := step_procInv h.processes e
  -- a slot that has a task keeps its lineage
  have hkeep : ∀ p, k.sched.state p ≠ .unused → g.next k e (k.step e) p = g p :=
    fun p hp => if_neg fun hc => hp hc.1
  have hloaded : ∀ p, UserMemory.validPid p → k.initialized = true →
      k.objects.caps.assignedServices p ≠ 0#32 → k.sched.state p ≠ .unused :=
    fun p hp hinit ha => h.processes.loaded p hp (h.processes.assigned hinit p hp ha)
  refine ⟨hproc, fun hinit p hp ha => ?_, fun p slot hopen => ?_⟩
  · rcases step_assigned h.processes e hinit p hp with ⟨hold, heq⟩ | hz | ⟨hunused, hmask⟩
    · have ha' : k.objects.caps.assignedServices p ≠ 0#32 := heq ▸ ha
      change (g.next k e (k.step e) p).head? = some ((k.step e).objects.caps.assignedServices p)
      rw [hkeep p (hloaded p hp hold ha'), heq]
      exact h.assigned hold p hp ha'
    · exact absurd hz ha
    · have hstate := hproc.loaded p hp (hproc.assigned hinit p hp ha)
      change (g.next k e (k.step e) p).head? = some ((k.step e).objects.caps.assignedServices p)
      rw [hmask, Lineage.next, if_pos ⟨hunused, hstate⟩]
      rfl
  · have hold : ∀ s, (k.objects.caps.entry p s).isOpen = true → ∃ m,
        (g.next k e (k.step e) p).head? = some m
          ∧ allows m (heldUnder (k.objects.caps.entry p s).payload.service) := by
      intro s hs
      obtain ⟨hp, -, hused⟩ := h.processes.held p s hs
      rw [hkeep p (h.processes.loaded p hp hused)]
      exact h.held p s hs
    rcases k.step_view e with hs | hg
    · rcases hs.released p slot with heq | ⟨-, hclosed, -⟩
      · have heq' : (k.step e).objects.caps.entry p slot = k.objects.caps.entry p slot := heq
        simp only [stepLineage] at hopen ⊢
        rw [heq'] at hopen ⊢
        exact hold slot hopen
      · exact absurd (hclosed.symm.trans hopen) (by simp)
    · have hinit := h.processes.userMode (hg.current_pos h.processes)
      rcases hg.allows hopen with heq | ⟨hp, hassigned | ⟨hfile, s, hs, hstorage⟩⟩
      · have heq' : (k.step e).objects.caps.entry p slot = k.objects.caps.entry p slot := heq
        simp only [stepLineage] at hopen ⊢
        rw [heq'] at hopen ⊢
        exact hold slot hopen
      · have hne : k.objects.caps.assignedServices p ≠ 0#32 := by
          intro hz
          rw [hz] at hassigned
          exact hassigned BitVec.zero_and
        refine ⟨k.objects.caps.assignedServices p, ?_, hassigned⟩
        change (g.next k e (k.step e) p).head? = _
        rw [hkeep p (hloaded p hp hinit hne)]
        exact h.assigned hinit p hp hne
      · obtain ⟨m, hm, hallows⟩ := hold s hs
        refine ⟨m, hm, ?_⟩
        have hfile' : ((k.step e).objects.caps.entry p slot).payload.service = .file := hfile
        simp only [stepLineage]
        rw [hfile']
        rwa [hstorage] at hallows

theorem fresh_serviceInv (b : BootInfo) : ServiceInv (fresh b, fun _ => []) :=
  ⟨fresh_procInv b, (fun h => by cases h), (fun p slot h => by cases h)⟩

def MaskLe (child parent : BitVec 32) : Prop := child &&& parent = child

instance (child parent : BitVec 32) : Decidable (MaskLe child parent) :=
  inferInstanceAs (Decidable (_ = _))

theorem MaskLe.allows {child parent : BitVec 32} (h : MaskLe child parent)
    {service : CapabilityService} (hc : allows child service) : allows parent service := by
  intro hz
  refine hc ?_
  rw [← show child &&& parent = child from h, BitVec.and_assoc, hz]
  exact BitVec.and_zero

theorem allows_of_chain {service : CapabilityService} :
    ∀ {masks : List (BitVec 32)} {m : BitVec 32}, masks.head? = some m → allows m service →
      masks.IsChain MaskLe → ∀ a ∈ masks, allows a service
  | [], _, h, _, _ => by cases h
  | [m'], m, h, hm, _ => by
    intro a ha
    simp only [List.head?_cons, Option.some.injEq] at h
    rw [List.mem_singleton.1 ha, h]
    exact hm
  | m₁ :: m₂ :: masks, m, h, hm, hchain => by
    simp only [List.head?_cons, Option.some.injEq] at h
    subst h
    rw [List.isChain_cons_cons] at hchain
    intro a ha
    rcases List.mem_cons.1 ha with rfl | ha
    · exact hm
    · exact allows_of_chain (m := m₂) rfl (hchain.1.allows hm) hchain.2 a ha

/-- Every capability a process holds is of a service in the mask of each process `a` it descends
from, itself included, where every spawn from `a` down to it asked for no more than its caller had
been given. -/
def WithinMasks (k : Kernel) (g : Lineage) : Prop :=
  ∀ p slot, (k.objects.caps.entry p slot).isOpen = true →
    g p ≠ [] ∧ ∀ below a above, g p = below ++ a :: above → (below ++ [a]).IsChain MaskLe →
      allows a (heldUnder (k.objects.caps.entry p slot).payload.service)

theorem services_within_mask (b : BootInfo) (events : List Event) :
    WithinMasks (runFrom b events) (lineage b events) := by
  have h : ServiceInv (Machine.run stepLineage (fresh b, fun _ => []) events) :=
    Machine.run_inv _ step_serviceInv events _ (fresh_serviceInv b)
  have hrun : (Machine.run stepLineage (fresh b, fun _ => []) events).1 = runFrom b events :=
    run_stepLineage_fst events _
  intro p slot hopen
  obtain ⟨m, hm, hallows⟩ := h.held p slot (hrun.symm ▸ hopen)
  rw [hrun] at hallows
  have hm' : (lineage b events p).head? = some m := hm
  refine ⟨fun hnil => by simp [hnil] at hm', fun below a above heq hchain => ?_⟩
  refine allows_of_chain (m := m) ?_ hallows hchain a (by simp)
  rw [heq] at hm'
  cases below <;> simpa using hm'

/-- The first process, which may not open AUDIO, spawns one that may and does. -/
def escalation : List Event :=
  bootEvents ++
    [call { rax := 11, rdi := 0x330000, rsi := 1, rdx := 0x800 }, call { rax := 1 },
      call { rax := 1 }, call { rax := 5, rdi := 11 }]

theorem spawned_outside_ancestor_mask :
    ¬ ∀ (b : BootInfo) (events : List Event) (p slot : ℕ),
      ((runFrom b events).objects.caps.entry p slot).isOpen = true →
        ∀ a ∈ lineage b events p,
          allows a (heldUnder ((runFrom b events).objects.caps.entry p slot).payload.service) := by
  intro h
  have hopen : ((runFrom smallBoot escalation).objects.caps.entry 3 0).isOpen = true := by
    decide +kernel
  have hancestor : bootstrapServices ∈ lineage smallBoot escalation 3 := by decide +kernel
  refine absurd (h smallBoot escalation 3 0 hopen _ hancestor) ?_
  decide +kernel

end Kernel

end DemonOS
