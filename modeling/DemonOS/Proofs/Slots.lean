import DemonOS.Proofs.Lineage

/-!
# Memory slots and task slots

The spawn loop chooses a memory slot by what it can hold and the task table takes the first empty
slot. The two agree where the lowest free slot takes the image, or none does (`LoadsLowest`). In
runs whose spawns are all of that kind a slot is loaded exactly when it has a task, whose address
space is the slot's own, and a spawn that fails creates no task (`process_slots_consistent`).
-/

namespace DemonOS

open Scheduler

namespace UserMemory

def takes (m : UserMemory) (image : List UInt8) (slot : ℕ) : Bool :=
  match (m.loadImage slot image).1 with
  | none => false
  | some entry => UInt64.ofNat entry != 0 && (m.processMemory slot).addressSpace != 0

def passOver (m : UserMemory) (image : List UInt8) (slot : ℕ) : UserMemory :=
  match m.loadImage slot image with
  | (none, m) => m
  | (some _, m) => m.largeCodeRelease slot

def noneTakes (image : List UInt8) : List ℕ → UserMemory → Bool
  | [], _ => true
  | slot :: slots, m => !m.takes image slot && noneTakes image slots (m.passOver image slot)

/-- The first slot of a list takes the image, or none does. -/
def LoadsLowest (m : UserMemory) (image : List UInt8) (slots : List ℕ) : Prop :=
  (∃ slot ∈ slots.head?, m.takes image slot = true) ∨ noneTakes image slots m = true

instance (m : UserMemory) (image : List UInt8) (slots : List ℕ) :
    Decidable (m.LoadsLowest image slots) :=
  inferInstanceAs (Decidable ((∃ slot ∈ slots.head?, m.takes image slot = true) ∨ _))

theorem passOver_same (m : UserMemory) (image : List UInt8) (slot : ℕ) :
    SameProcesses m (m.passOver image slot) := by
  have h := loadImage_same m slot image
  unfold passOver
  generalize m.loadImage slot image = r at h
  obtain ⟨_ | entry, m'⟩ := r
  · exact h
  · exact h.trans (largeCodeRelease_same m' slot)

end UserMemory

namespace Kernel

variable {image : List UInt8} {k k' : Kernel} {parent slot : ℕ}

def candidates : List ℕ := (List.range (processLimit - 1)).map (· + 1)

def freeSlots (k : Kernel) : List ℕ := candidates.filter fun p => !k.mem.processMemoryUsed p

/-- A slot is loaded exactly when it has a task, which runs in the slot's address space. -/
structure SlotsInv (k : Kernel) : Prop where
  loaded : ∀ p, UserMemory.validPid p →
    (k.mem.processMemoryUsed p = true ↔ k.sched.state p ≠ .unused)
  space : ∀ p, UserMemory.validPid p → k.sched.state p ≠ .unused →
    (k.sched.tasks p).addressSpace = (k.mem.processMemory p).addressSpace

theorem SlotsInv.survives (h : SlotsInv k) (hs : Survives k k')
    (hproc : ProcInv k') : SlotsInv k' where
  loaded p hp := by
    refine ⟨hproc.loaded p hp, fun hlive => ?_⟩
    rw [hs.used p hp.1 hlive]
    exact (h.loaded p hp).2 (hs.heirs.tasks p hp.1 hlive).1
  space p hp hlive := by
    obtain ⟨hlive', horigin⟩ := hs.heirs.tasks p hp.1 hlive
    rw [hs.memory]
    exact (congrArg Prod.snd horigin).trans (h.space p hp hlive')

/-! ## Loading one slot -/

theorem loadProcess_slotsInv
    {mask : BitVec 32} (hk : SlotsInv k) (h : k.loadProcess slot parent image mask = (true, k')) :
    SlotsInv k' := by
  have hload := UserMemory.loadImage_same k.mem slot image
  unfold loadProcess at h
  generalize k.mem.loadImage slot image = r at hload h
  obtain ⟨_ | entry, m⟩ := r
  · cases h
  · simp only at h
    split at h
    · cases h
    · rename_i pid s hcreate
      split_ifs at h with hpid
      · cases h
      · rw [not_not] at hpid
        subst hpid
        split at h
        · cases h
        · simp only [Prod.mk.injEq, true_and] at h
          obtain ⟨-, -, -, -, -, -, htasks⟩ := createUser_spec hcreate
          have hspace : m.processMemory = k.mem.processMemory := hload.processMemory
          have hused : m.processMemoryUsed = k.mem.processMemoryUsed := hload.used
          rw [← h]
          refine ⟨fun p hp => ?_, fun p hp hlive => ?_⟩
          · rcases eq_or_ne p pid with rfl | hne
            · simp [state, htasks]
            · have := hk.loaded p hp
              simpa [state, htasks, hne, hused] using this
          · rcases eq_or_ne p pid with rfl | hne
            · simp [htasks]
            · have := hk.space p hp (by simpa [state, htasks, hne] using hlive)
              simpa [htasks, hne, hspace] using this

theorem freeSlots_lowest (hk : SlotsInv k)
    (h : k.freeSlots.head? = some slot) :
    ∃ i, slot = i + 1 ∧ Table.firstIndex (processLimit - 1)
      (fun i => decide (k.sched.state (i + 1) = .unused)) = some i := by
  unfold freeSlots candidates at h
  rw [List.head?_filter, List.find?_map, Option.map_eq_some_iff] at h
  obtain ⟨i, hi, rfl⟩ := h
  refine ⟨i, rfl, ?_⟩
  have hfree : ∀ j < processLimit - 1, (!k.mem.processMemoryUsed (j + 1)) = true ↔
      decide (k.sched.state (j + 1) = .unused) = true := by
    intro j hj
    have := hk.loaded (j + 1) ⟨by omega, by omega⟩
    rw [Bool.not_eq_true', decide_eq_true_eq, ← Bool.not_eq_true, this, not_not]
  obtain ⟨hlt, hused, hmin⟩ := Table.firstIndex_eq_some.1 hi
  refine Table.firstIndex_eq_some.2 ⟨hlt, (hfree i hlt).1 hused, fun j hj => ?_⟩
  rw [← Bool.not_eq_true, ← hfree j (by omega)]
  exact fun hj' => absurd (hj'.symm.trans (hmin j hj)) (by simp)

theorem loadProcess_of_takes (hk : SlotsInv k)
    (mask : BitVec 32) (hparent : parent < processLimit)
    (hlowest : k.freeSlots.head? = some slot) (htakes : k.mem.takes image slot = true) :
    ∃ k', k.loadProcess slot parent image mask = (true, k') := by
  obtain ⟨i, rfl, hfirst⟩ := freeSlots_lowest hk hlowest
  have hlt := (Table.firstIndex_eq_some.1 hfirst).1
  have hsame := (UserMemory.loadImage_same k.mem (i + 1) image).processMemory
  unfold UserMemory.takes at htakes
  unfold loadProcess
  generalize k.mem.loadImage (i + 1) image = r at hsame htakes
  obtain ⟨_ | entry, m⟩ := r
  · cases htakes
  · simp only [Bool.and_eq_true, bne_iff_ne, ne_eq] at htakes hsame
    obtain ⟨hentry, hspace⟩ := htakes
    rw [← hsame] at hspace
    have hstack : UInt64.ofNat (userAddressEnd - 16) ≠ 0 := by decide
    have hvalid : ¬(i + 1 = 0 ∨ processLimit ≤ i + 1) := by
      unfold processLimit at *
      omega
    simp only [createUser]
    rw [if_neg (by simp only [not_or, not_le]; exact ⟨hentry, hstack, hspace, hparent⟩)]
    simp only [withMem_sched, hfirst]
    rw [if_neg (not_not.2 rfl)]
    unfold Capabilities.capabilityAssignServices
    rw [if_neg hvalid]
    exact ⟨_, rfl⟩

theorem loadProcess_of_not_takes (k : Kernel)
    {mask : BitVec 32} (h : k.mem.takes image slot = false) :
    k.loadProcess slot parent image mask = (false, k.withMem (k.mem.passOver image slot)) := by
  have hsame := (UserMemory.loadImage_same k.mem slot image).processMemory
  unfold UserMemory.takes at h
  unfold loadProcess UserMemory.passOver
  generalize k.mem.loadImage slot image = r at hsame h
  obtain ⟨_ | entry, m⟩ := r
  · rfl
  · simp only [Bool.and_eq_false_iff, bne_eq_false_iff_eq] at h hsame
    simp only [createUser]
    rw [if_pos]
    · rfl
    · rcases h with h | h
      · exact .inl h
      · exact .inr (.inr (.inl (by rw [hsame]; exact h)))

/-! ## The spawn loop -/

theorem spawnLoop_of_noneTakes (parent : ℕ) (image : List UInt8) (mask : BitVec 32) :
    ∀ (slots : List ℕ) (k : Kernel),
      UserMemory.noneTakes image (slots.filter fun p => !k.mem.processMemoryUsed p) k.mem = true →
      ∃ m, UserMemory.SameProcesses k.mem m
        ∧ spawnLoop parent image mask slots k = (none, k.withMem m)
  | [], k, _ => ⟨k.mem, .refl _, rfl⟩
  | slot :: slots, k, h => by
    unfold spawnLoop
    cases hused : k.mem.processMemoryUsed slot with
    | true =>
      rw [List.filter_cons_of_neg (by simp [hused])] at h
      exact spawnLoop_of_noneTakes parent image mask slots k h
    | false =>
      rw [List.filter_cons_of_pos (by simp [hused]), UserMemory.noneTakes, Bool.and_eq_true,
        Bool.not_eq_true'] at h
      have hsame := UserMemory.passOver_same k.mem image slot
      rw [if_neg (by simp), loadProcess_of_not_takes k h.1]
      obtain ⟨m, hm, heq⟩ := spawnLoop_of_noneTakes parent image mask slots
        (k.withMem (k.mem.passOver image slot)) (by rw [withMem_mem, hsame.used]; exact h.2)
      exact ⟨m, hsame.trans hm, heq⟩

theorem spawnLoop_of_loads {mask : BitVec 32}
    (hload : k.loadProcess slot parent image mask = (true, k')) :
    ∀ slots : List ℕ,
      (slots.filter fun p => !k.mem.processMemoryUsed p).head? = some slot →
      spawnLoop parent image mask slots k = (some slot, k')
  | [], h => by cases h
  | first :: slots, h => by
    unfold spawnLoop
    cases hused : k.mem.processMemoryUsed first with
    | true =>
      rw [List.filter_cons_of_neg (by simp [hused])] at h
      exact spawnLoop_of_loads hload slots h
    | false =>
      rw [List.filter_cons_of_pos (by simp [hused]), List.head?_cons, Option.some.injEq] at h
      rw [if_neg (by simp), h, hload]

def imageAt (k : Kernel) (path : List UInt8) : Option (List UInt8) :=
  (k.files.ramfsOpen path false).bind fun r => k.files.ramfsView r.1

def PathLoadsLowest (k : Kernel) (path : List UInt8) : Prop :=
  ∀ image ∈ k.imageAt path, k.mem.LoadsLowest image k.freeSlots

theorem userspaceSpawnPath_slotsInv (hk : SlotsInv k)
    (hparent : parent < processLimit) {path : List UInt8} (hfits : k.PathLoadsLowest path)
    (mask : BitVec 32) :
    SlotsInv (k.userspaceSpawnPath parent path mask).2
      ∧ ((k.userspaceSpawnPath parent path mask).1 = none →
        (k.userspaceSpawnPath parent path mask).2.sched = k.sched) := by
  unfold userspaceSpawnPath
  split_ifs
  · exact ⟨hk, fun _ => rfl⟩
  unfold PathLoadsLowest imageAt at hfits
  split
  · exact ⟨hk, fun _ => rfl⟩
  · rename_i objectId _ hopen
    rw [hopen] at hfits
    split
    · exact ⟨hk, fun _ => rfl⟩
    · rename_i image hview
      rcases hfits image hview with ⟨slot, hlowest, htakes⟩ | hnone
      · obtain ⟨k', hload⟩ := loadProcess_of_takes hk mask hparent hlowest htakes
        have hloop := spawnLoop_of_loads hload candidates hlowest
        rw [candidates] at hloop
        rw [hloop]
        exact ⟨loadProcess_slotsInv hk hload, fun h => by cases h⟩
      · obtain ⟨m, hm, hloop⟩ := spawnLoop_of_noneTakes parent image mask candidates k hnone
        rw [candidates] at hloop
        rw [hloop]
        refine ⟨⟨fun p hp => ?_, fun p hp hlive => ?_⟩, fun _ => rfl⟩
        · rw [withMem_mem, hm.used]
          exact hk.loaded p hp
        · rw [withMem_mem, hm.processMemory]
          exact hk.space p hp hlive

def SpawnsLowest (k : Kernel) (e : Event) : Prop :=
  ∀ path ∈ k.spawnedPath e, k.PathLoadsLowest path

instance (k : Kernel) (path : List UInt8) : Decidable (k.PathLoadsLowest path) :=
  inferInstanceAs (Decidable (∀ image ∈ k.imageAt path, k.mem.LoadsLowest image k.freeSlots))

instance (k : Kernel) (e : Event) : Decidable (SpawnsLowest k e) :=
  inferInstanceAs (Decidable (∀ path ∈ k.spawnedPath e, k.PathLoadsLowest path))

theorem fresh_slotsInv (b : BootInfo) : SlotsInv (fresh b) := by
  have hunused : ∀ p, UserMemory.validPid p → (fresh b).sched.state p = .unused :=
    fun p hp => by simp [fresh, state, hp.1]
  refine ⟨fun p hp => ?_, fun p hp hlive => absurd (hunused p hp) hlive⟩
  rw [hunused p hp]
  simp [fresh]

theorem userspaceInit_slotsInv (hk : SlotsInv k)
    (h : k.userspaceInit image = some k') : SlotsInv k' := by
  unfold userspaceInit at h
  split at h
  · cases h
  · rename_i k₁ h1
    split at h
    · cases h
    · rename_i k₂ h2
      simp only [Option.some.injEq] at h
      have hk₂ := loadProcess_slotsInv (loadProcess_slotsInv hk h1) h2
      rw [← h]
      exact ⟨hk₂.loaded, hk₂.space⟩

theorem actor_lt (hs : k.sched.Inv) (e : Event) : k.actor e < processLimit := by
  cases e with
  | syscall registers user dev => exact hs.current_lt
  | _ => exact Nat.succ_pos _

theorem step_slotsInv (hproc : ProcInv k) (hk : SlotsInv k) {e : Event}
    (hok : SpawnsLowest k e) : SlotsInv (k.step e) := by
  have hproc' := step_procInv hproc e
  cases step_passes hproc.sched e with
  | survives h => exact hk.survives h hproc'
  | @spawns k₀ path mask poised requested after =>
    have hmem := poised.stores.mem
    have hfiles := poised.stores.files
    have hk₀ : SlotsInv k₀ := by
      refine ⟨fun p hp => ?_, fun p hp hlive => ?_⟩
      · unfold state
        rw [poised.tasks, hmem]
        exact hk.loaded p hp
      · unfold state at hlive
        rw [poised.tasks] at hlive ⊢
        rw [hmem]
        exact hk.space p hp hlive
    have hfits : k₀.PathLoadsLowest path := by
      unfold PathLoadsLowest imageAt freeSlots
      rw [hmem, hfiles]
      exact hok path requested
    have h := userspaceSpawnPath_slotsInv hk₀ (actor_lt hproc.sched e) hfits mask
    exact h.1.survives after hproc'
  | init event h => exact userspaceInit_slotsInv hk h

/-- In a run whose spawns all find the lowest free slot fit, or none, a slot is loaded exactly when
it has a task and that task runs in the slot's address space. A spawn of that kind that fails
creates no task. -/
theorem process_slots_consistent (b : BootInfo) (events : List Event)
    (hok : Machine.Meets step SpawnsLowest (fresh b) events) :
    (∀ p, UserMemory.validPid p →
      ((runFrom b events).mem.processMemoryUsed p = true ↔
        (runFrom b events).sched.state p ≠ .unused))
    ∧ (∀ p, UserMemory.validPid p → (runFrom b events).sched.state p ≠ .unused →
      ((runFrom b events).sched.tasks p).addressSpace
        = ((runFrom b events).mem.processMemory p).addressSpace)
    ∧ ∀ parent path mask, parent < processLimit → (runFrom b events).PathLoadsLowest path →
      ((runFrom b events).userspaceSpawnPath parent path mask).1 = none →
        ((runFrom b events).userspaceSpawnPath parent path mask).2.sched
          = (runFrom b events).sched := by
  have h : ProcInv (runFrom b events) ∧ SlotsInv (runFrom b events) :=
    Machine.run_inv_of_meets step (I := fun k => ProcInv k ∧ SlotsInv k)
      (fun k e h hok => ⟨step_procInv h.1 e, step_slotsInv h.1 h.2 hok⟩) events (fresh b)
      ⟨fresh_procInv b, fresh_slotsInv b⟩ hok
  exact ⟨h.2.loaded, h.2.space, fun parent path mask hparent hfits =>
    (userspaceSpawnPath_slotsInv h.2 hparent hfits mask).2⟩

def oneSpawn : List Event := bootEvents.take 2 ++ [.kernel (.spawn [0x61] 0#32)]

theorem process_slots_consistent_oneSpawn :
    (runFrom smallBoot oneSpawn).mem.processMemoryUsed 3 = true
      ∧ (runFrom smallBoot oneSpawn).sched.state 3 ≠ .unused := by
  have hused : (runFrom smallBoot oneSpawn).mem.processMemoryUsed 3 = true := by decide +kernel
  have h := (process_slots_consistent smallBoot oneSpawn (by decide +kernel)).1 3 (by decide)
  exact ⟨hused, h.1 hused⟩

/-- Slots of two code pages each, but for slot 3, which has one. -/
def unevenBoot : BootInfo :=
  { smallBoot with
    processes := fun pid => { smallMemory pid with codePageCount := if pid = 3 then 1 else 2 } }

def wideImage : List UInt8 := smallImage.set 105 32

/-- A file that needs two pages is spawned while slot 3 is the lowest free slot. The spawn fails,
and slot 3 has a task that is ready to run and no memory. -/
theorem failed_spawn_leaves_task :
    let events : List Event :=
      [.kernel (.file (.seedReference [0x61] wideImage)), .kernel (.init smallImage)]
    ((runFrom unevenBoot events).userspaceSpawnPath 0 [0x61] 0#32).1 = none
      ∧ ((runFrom unevenBoot events).userspaceSpawnPath 0 [0x61] 0#32).2.sched.state 3 = .ready
      ∧ ((runFrom unevenBoot events).userspaceSpawnPath 0 [0x61] 0#32).2.mem.processMemoryUsed 3
        = false := by
  decide +kernel

/-! ## Processes that have ended -/

/-- Only a process that is loaded and has a task holds handles and, once userspace is up, may open
services: the next one in a slot starts with nothing of the last one's. -/
structure HandlesLive (k : Kernel) : Prop where
  held : ∀ p slot, (k.objects.caps.entry p slot).isOpen = true →
    k.mem.processMemoryUsed p = true ∧ k.sched.state p ≠ .unused
  assigned : k.initialized = true → ∀ p, UserMemory.validPid p →
    k.objects.caps.assignedServices p ≠ 0#32 →
      k.mem.processMemoryUsed p = true ∧ k.sched.state p ≠ .unused

theorem runFrom_handlesLive (b : BootInfo) (events : List Event) :
    HandlesLive (runFrom b events) := by
  have h := runFrom_procInv b events
  refine ⟨fun p slot hopen => ?_, fun hinit p hp hassigned => ?_⟩
  · obtain ⟨hp, -, hused⟩ := h.held p slot hopen
    exact ⟨hused, h.loaded p hp hused⟩
  · have hused := h.assigned hinit p hp hassigned
    exact ⟨hused, h.loaded p hp hused⟩

end Kernel

end DemonOS
