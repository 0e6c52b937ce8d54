import DemonOS.Lib.Machine
import DemonOS.Capability
import Mathlib.Data.Nat.Bitwise

/-!
# When a handle resolves

A run is any sequence of calls of the capability module, with the surfaces changing in between as
they like. Beside the tables the run keeps, for every slot, how often it has been released and
what its latest allocation stored and returned (`CapTrace`). Each call keeps a slot, opens it or
frees it (`capCall_slot`), so a slot's generation counts its releases modulo 65535 (`HandleInv`).
-/

namespace DemonOS

open Capabilities Objects

/-- A call of the capability module, or a change of the surfaces by another module. -/
inductive CapCall where
  | assignServices (pid : ℕ) (mask : BitVec 32)
  | openService (pid service : ℕ)
  | openFile (pid objectId : ℕ)
  | openIpc (pid channelId : ℕ) (rights : BitVec 32)
  | openSurface (pid surfaceId : ℕ) (rights : BitVec 32)
  | grant (sourcePid sourceHandle targetPid : ℕ) (rights : BitVec 32)
  | close (callerPid handle : ℕ)
  | closeAll (pid : ℕ)
  | surfaces (s : Surfaces)

def capCall (o : Objects) : CapCall → Option ℕ × Objects
  | .assignServices pid mask =>
    (none, { o with caps := (o.caps.capabilityAssignServices pid mask).getD o.caps })
  | .openService pid service => withCaps o (o.caps.capabilityOpen pid service)
  | .openFile pid objectId => withCaps o (o.caps.capabilityOpenFile pid objectId)
  | .openIpc pid channelId rights => withCaps o (o.caps.capabilityOpenIpc pid channelId rights)
  | .openSurface pid surfaceId rights => o.capabilityOpenSurface pid surfaceId rights
  | .grant sourcePid sourceHandle targetPid rights =>
    o.capabilityGrant sourcePid sourceHandle targetPid rights
  | .close callerPid handle => (none, (o.capabilityClose callerPid handle).getD o)
  | .closeAll pid => (none, o.capabilitiesCloseAll pid)
  | .surfaces s => (none, o.withSurfaces s)
where
  withCaps (o : Objects) : Option (ℕ × Capabilities) → Option ℕ × Objects
    | none => (none, o)
    | some (handle, c) => (some handle, { o with caps := c })

def CapCall.recipient : CapCall → ℕ
  | assignServices pid _ | openService pid _ | openFile pid _ | openIpc pid _ _
  | openSurface pid _ _ | grant _ _ pid _ | close pid _ | closeAll pid => pid
  | surfaces _ => 0

def CapCall.payload (o : Objects) : CapCall → CapabilityPayload
  | openService _ service =>
    { service := .ofNumber service, rights := serviceRights service, objectId := 0 }
  | openFile _ objectId =>
    { service := .file, rights := rightRead ||| rightWrite ||| rightQuery, objectId := objectId }
  | openIpc _ channelId rights => { service := .ipc, rights := rights, objectId := channelId }
  | openSurface _ surfaceId rights =>
    { service := .surface, rights := rights, objectId := surfaceId }
  | grant sourcePid sourceHandle _ rights =>
    { service := .surface, rights := rights
      objectId := match o.caps.capabilityResolveObject sourcePid sourceHandle rights with
        | some source => source.objectId
        | none => 0 }
  | _ => {}

/-- The tables with what has happened to each slot so far. -/
structure CapTrace where
  objects : Objects
  releases : ℕ → ℕ → ℕ := fun _ _ => 0
  stored : ℕ → ℕ → CapabilityPayload := fun _ _ => {}
  issued : ℕ → ℕ → ℕ := fun _ _ => 0

namespace CapTrace

def isOpen (t : CapTrace) (p i : ℕ) : Bool := (t.objects.caps.entry p i).isOpen

/-- One call: a slot open before and closed after has been released once more, and the slot the
returned handle names has been allocated. -/
def step (t : CapTrace) (call : CapCall) : CapTrace :=
  let r := capCall t.objects call
  let allocated (p i : ℕ) : Bool :=
    match r.1 with
    | none => false
    | some handle => (decodeHandle handle).any fun d => d.1 = p ∧ d.2.1 = i
  { objects := r.2
    releases := fun p i =>
      if t.isOpen p i = true ∧ (r.2.caps.entry p i).isOpen = false then t.releases p i + 1
      else t.releases p i
    stored := fun p i => if allocated p i then call.payload t.objects else t.stored p i
    issued := fun p i => if allocated p i then r.1.getD 0 else t.issued p i }

theorem step_releases (t : CapTrace) (call : CapCall) (p i : ℕ) :
    (t.step call).releases p i =
      if t.isOpen p i = true ∧ (t.step call).isOpen p i = false then t.releases p i + 1
      else t.releases p i := rfl

end CapTrace

def capRun (s : Surfaces) (calls : List CapCall) : CapTrace :=
  Machine.run CapTrace.step { objects := { caps := capabilitiesInit, surfaces := s } } calls

/-! ## Handles -/

theorem decodeHandle_makeHandle {pid slot generation : ℕ} (hpid : pid < processLimit)
    (hslot : slot < slotsPerProcess) (hgen : 0 < generation) (hlt : generation < 65536) :
    decodeHandle (makeHandle pid slot generation) = some (pid, slot, generation) := by
  unfold processLimit at hpid
  unfold slotsPerProcess at hslot
  have hm : makeHandle pid slot generation = generation * 65536 + pid * 256 + slot := by
    unfold makeHandle
    rw [Nat.shiftLeft_eq, Nat.shiftLeft_eq, Nat.lor_assoc]
    have h1 : pid * 2 ^ 8 ||| slot = pid * 2 ^ 8 + slot := by
      rw [Nat.mul_comm, Nat.two_pow_add_eq_or_of_lt (by omega)]
    rw [h1, Nat.mul_comm generation, ← Nat.two_pow_add_eq_or_of_lt (by omega)]
    omega
  unfold decodeHandle
  rw [hm]
  have h0 : (generation * 65536 + pid * 256 + slot) >>> 32 = 0 := by
    rw [Nat.shiftRight_eq_div_pow]
    omega
  have h1 : (generation * 65536 + pid * 256 + slot) &&& 0xFF = slot := by
    rw [show (0xFF : ℕ) = 2 ^ 8 - 1 from rfl, Nat.and_two_pow_sub_one_eq_mod]
    omega
  have h2 : (generation * 65536 + pid * 256 + slot) >>> 8 &&& 0xFF = pid := by
    rw [show (0xFF : ℕ) = 2 ^ 8 - 1 from rfl, Nat.and_two_pow_sub_one_eq_mod,
      Nat.shiftRight_eq_div_pow]
    omega
  have h3 : (generation * 65536 + pid * 256 + slot) >>> 16 % 65536 = generation := by
    rw [Nat.shiftRight_eq_div_pow]
    omega
  simp only [h0, h1, h2, h3]
  rw [if_neg (by simp), if_pos ⟨hpid, hslot, by omega⟩]

theorem decodeHandle_entry (c : Capabilities) {pid slot : ℕ} (hpid : pid < processLimit)
    (hslot : slot < slotsPerProcess) :
    decodeHandle (makeHandle pid slot (c.entry pid slot).generation)
      = some (pid, slot, (c.entry pid slot).generation) :=
  decodeHandle_makeHandle hpid hslot (c.entry pid slot).generation_pos
    (c.entry pid slot).generation_lt

/-! ## Generations -/

theorem nextGeneration_eq {g : ℕ} (hpos : 0 < g) (hlt : g < 65536) :
    nextGeneration g = g % 65535 + 1 := by
  unfold nextGeneration
  split_ifs <;> omega

theorem nextGeneration_iterate (n : ℕ) : nextGeneration^[n] 1 = n % 65535 + 1 := by
  induction n with
  | zero => rfl
  | succ n ih =>
    rw [Function.iterate_succ_apply', ih, nextGeneration_eq (by omega) (by omega)]
    omega

/-! ## What a call does to a slot -/

/-- A call frees slots and returns nothing, or opens one free slot of its recipient for its payload
and returns the slot's handle. -/
theorem capCall_cases (o : Objects) (call : CapCall) :
    ((capCall o call).1 = none ∧ Released o.caps (capCall o call).2.caps)
    ∨ ∃ slot, call.recipient < processLimit
      ∧ (capCall o call).1
        = some (makeHandle call.recipient slot (o.caps.entry call.recipient slot).generation)
      ∧ o.caps.Opens call.recipient slot (call.payload o) (capCall o call).2.caps := by
  cases call with
  | assignServices pid mask =>
    refine .inl ⟨rfl, fun p i => .inl ?_⟩
    simp only [capCall, capabilityAssignServices]
    split_ifs <;> rfl
  | openService pid service =>
    simp only [capCall]
    cases h : o.caps.capabilityOpen pid service with
    | none => exact .inl ⟨rfl, .refl _⟩
    | some r =>
      obtain ⟨-, hpid, -, -, slot, hr, hopen⟩ := capabilityOpen_spec h
      exact .inr ⟨slot, hpid, congrArg some hr, hopen⟩
  | openFile pid objectId =>
    simp only [capCall]
    cases h : o.caps.capabilityOpenFile pid objectId with
    | none => exact .inl ⟨rfl, .refl _⟩
    | some r =>
      obtain ⟨-, hpid, -, slot, hr, hopen⟩ := capabilityOpenFile_spec h
      exact .inr ⟨slot, hpid, congrArg some hr, hopen⟩
  | openIpc pid channelId rights =>
    simp only [capCall]
    cases h : o.caps.capabilityOpenIpc pid channelId rights with
    | none => exact .inl ⟨rfl, .refl _⟩
    | some r =>
      obtain ⟨-, hpid, -, -, slot, hr, hopen⟩ := capabilityOpenIpc_spec h
      exact .inr ⟨slot, hpid, congrArg some hr, hopen⟩
  | openSurface pid surfaceId rights =>
    simp only [capCall]
    exact surfaceOpening_cases (capabilityOpenSurface_spec o pid surfaceId rights)
  | grant sourcePid sourceHandle targetPid rights =>
    rcases capabilityGrant_spec o sourcePid sourceHandle targetPid rights with
      h | ⟨source, hsource, -, -, h⟩
    · refine .inl ?_
      simp only [capCall, h]
      exact ⟨trivial, .refl _⟩
    · have hpay : (CapCall.grant sourcePid sourceHandle targetPid rights).payload o
          = { service := .surface, rights := rights, objectId := source.objectId } := by
        simp only [CapCall.payload, hsource]
      rw [hpay]
      exact surfaceOpening_cases h
  | close callerPid handle =>
    refine .inl ⟨rfl, ?_⟩
    simp only [capCall]
    cases h : o.capabilityClose callerPid handle with
    | none => exact .refl _
    | some o' =>
      obtain ⟨-, slot, hslot⟩ := capabilityClose_spec h
      exact (releaseSlot_released hslot).1
  | closeAll pid => exact .inl ⟨rfl, capabilitiesCloseAll_released o pid⟩
  | surfaces s => exact .inl ⟨rfl, .refl _⟩
where
  surfaceOpening_cases {o o' : Objects} {pid surfaceId : ℕ} {rights : BitVec 32} {r : Option ℕ}
      (h : SurfaceOpening o pid surfaceId rights r o') :
      (r = none ∧ Released o.caps o'.caps)
      ∨ ∃ slot, pid < processLimit
        ∧ r = some (makeHandle pid slot (o.caps.entry pid slot).generation)
        ∧ o.caps.Opens pid slot
          { service := .surface, rights := rights, objectId := surfaceId } o'.caps := by
    cases h with
    | refused => exact .inl ⟨rfl, .refl _⟩
    | rolledBack _ => exact .inl ⟨rfl, .refl _⟩
    | opened _ hpid _ _ hopen => exact .inr ⟨_, hpid, rfl, hopen⟩

/-- A slot's generation counts its releases, and an open slot holds what its latest allocation
stored, under the handle that allocation returned. -/
structure HandleInv (t : CapTrace) : Prop where
  generation : ∀ p i, (t.objects.caps.entry p i).generation = nextGeneration^[t.releases p i] 1
  open_lt : ∀ p i, t.isOpen p i = true → p < processLimit ∧ i < slotsPerProcess
  stored : ∀ p i, t.isOpen p i = true → t.stored p i = (t.objects.caps.entry p i).payload
  issued : ∀ p i, t.isOpen p i = true →
    t.issued p i = makeHandle p i (t.objects.caps.entry p i).generation

theorem handleInv_init (s : Surfaces) : HandleInv (capRun s []) where
  generation := fun _ _ => rfl
  open_lt := fun _ _ h => absurd h Bool.false_ne_true
  stored := fun _ _ h => absurd h Bool.false_ne_true
  issued := fun _ _ h => absurd h Bool.false_ne_true

theorem handleInv_step (t : CapTrace) (call : CapCall) (hI : HandleInv t) :
    HandleInv (t.step call) := by
  rcases capCall_cases t.objects call with ⟨hnone, hrel⟩ | ⟨slot, hpid, hsome, hopen⟩
  · have hkept : ∀ p i, (t.step call).isOpen p i = true →
        (t.step call).objects.caps.entry p i = t.objects.caps.entry p i := by
      intro p i h
      rcases hrel p i with he | ⟨-, hc, -⟩
      · exact he
      · exact absurd h (by simp [CapTrace.isOpen, CapTrace.step, hc])
    refine ⟨fun p i => ?_, fun p i h => ?_, fun p i h => ?_, fun p i h => ?_⟩
    · rw [CapTrace.step_releases]
      rcases hrel p i with he | ⟨ho, hc, hg⟩
      · have hsame : (t.step call).isOpen p i = t.isOpen p i :=
          congrArg SlotEntry.isOpen he
        rw [hsame, if_neg (by simp), ← hI.generation p i]
        exact congrArg SlotEntry.generation he
      · rw [if_pos ⟨ho, hc⟩, Function.iterate_succ_apply', ← hI.generation p i]
        exact hg
    all_goals have hk := hkept p i h
    all_goals rw [CapTrace.isOpen, hk] at h
    · exact hI.open_lt p i h
    · rw [hk, ← hI.stored p i h]
      simp [CapTrace.step, hnone]
    · rw [hk, ← hI.issued p i h]
      simp [CapTrace.step, hnone]
  · have hdec := decodeHandle_entry t.objects.caps hpid hopen.slot_lt
    have hent : ∀ p i, (t.step call).objects.caps.entry p i =
        if p = call.recipient ∧ i = slot then
          { t.objects.caps.entry call.recipient slot with
            isOpen := true, payload := call.payload t.objects }
        else t.objects.caps.entry p i := by
      intro p i
      show (capCall t.objects call).2.caps.entry p i = _
      rw [hopen.eq, entry_setEntry]
    refine ⟨fun p i => ?_, fun p i h => ?_, fun p i h => ?_, fun p i h => ?_⟩
    · rw [hent]
      have hrel : (t.step call).releases p i = t.releases p i := by
        refine if_neg fun hc => ?_
        have hcl : ((t.step call).objects.caps.entry p i).isOpen = false := hc.2
        rw [hent] at hcl
        split_ifs at hcl
        rw [CapTrace.isOpen, hcl] at hc
        simp at hc
      rw [hrel]
      split_ifs with hpi
      · obtain ⟨rfl, rfl⟩ := hpi
        exact hI.generation _ _
      · exact hI.generation p i
    all_goals rw [CapTrace.isOpen, hent] at h
    · split_ifs at h with hpi
      · exact ⟨hpi.1 ▸ hpid, hpi.2 ▸ hopen.slot_lt⟩
      · exact hI.open_lt p i h
    · rw [hent]
      simp only [CapTrace.step, hsome, hdec, Option.any_some, decide_eq_true_eq]
      split_ifs with hpi hpi' hpi'
      · rfl
      · exact absurd ⟨hpi.1.symm, hpi.2.symm⟩ hpi'
      · exact absurd ⟨hpi'.1.symm, hpi'.2.symm⟩ hpi
      · rw [if_neg hpi'] at h
        exact hI.stored p i h
    · rw [hent]
      simp only [CapTrace.step, hsome, hdec, Option.any_some, decide_eq_true_eq, Option.getD_some]
      split_ifs with hpi hpi' hpi'
      · obtain ⟨rfl, rfl⟩ := hpi
        rfl
      · exact absurd ⟨hpi.1.symm, hpi.2.symm⟩ hpi'
      · exact absurd ⟨hpi'.1.symm, hpi'.2.symm⟩ hpi
      · rw [if_neg hpi'] at h
        exact hI.issued p i h

theorem handleInv_run (s : Surfaces) (calls : List CapCall) : HandleInv (capRun s calls) :=
  Machine.run_inv _ handleInv_step calls _ (handleInv_init s)

theorem capRun_append (s : Surfaces) (calls calls' : List CapCall) :
    capRun s (calls ++ calls') = Machine.run CapTrace.step (capRun s calls) calls' :=
  Machine.run_append ..

theorem releases_le_run (t : CapTrace) (calls : List CapCall) (p i : ℕ) :
    t.releases p i ≤ (Machine.run CapTrace.step t calls).releases p i := by
  refine Machine.run_inv CapTrace.step (I := fun t' => t.releases p i ≤ t'.releases p i)
    (fun t' call h => ?_) calls t le_rfl
  rw [CapTrace.step_releases]
  split_ifs <;> omega

theorem generation_eq_iff {t t' : CapTrace} (hI : HandleInv t) (hI' : HandleInv t') {p i : ℕ}
    (hle : t.releases p i ≤ t'.releases p i) :
    (t.objects.caps.entry p i).generation = (t'.objects.caps.entry p i).generation
      ↔ 65535 ∣ t'.releases p i - t.releases p i := by
  rw [hI.generation, hI'.generation, nextGeneration_iterate, nextGeneration_iterate]
  omega

/-- A handle issued in a run resolves later for its recipient only, while its slot is open and has
been released a multiple of 65535 times since, to what the slot's latest allocation stored; and
the handles of a process's open slots are distinct and nonzero. -/
theorem issued_handle_resolves_iff (s : Surfaces) (before after : List CapCall) (call : CapCall)
    {handle : ℕ} (hissue : (capCall (capRun s before).objects call).1 = some handle) :
    (∃ i g, decodeHandle handle = some (call.recipient, i, g)
      ∧ ∀ q right v,
        (capRun s (before ++ call :: after)).objects.caps.capabilityResolveObject q handle right
            = some v
          ↔ q = call.recipient
            ∧ (capRun s (before ++ call :: after)).isOpen call.recipient i = true
            ∧ 65535 ∣ (capRun s (before ++ call :: after)).releases call.recipient i
                - (capRun s (before ++ [call])).releases call.recipient i
            ∧ v = (capRun s (before ++ call :: after)).stored call.recipient i
            ∧ v.rights &&& right = right)
    ∧ ∀ p i j, (capRun s (before ++ call :: after)).isOpen p i = true →
      (capRun s (before ++ call :: after)).isOpen p j = true →
      (capRun s (before ++ call :: after)).issued p i ≠ 0
        ∧ (i ≠ j → (capRun s (before ++ call :: after)).issued p i
          ≠ (capRun s (before ++ call :: after)).issued p j) := by
  have hI₁ := handleInv_run s (before ++ [call])
  have hI₂ := handleInv_run s (before ++ call :: after)
  refine ⟨?_, fun p i j hi hj => ?_⟩
  · rcases capCall_cases (capRun s before).objects call with ⟨hnone, -⟩ | ⟨slot, hpid, hsome, hopen⟩
    · rw [hnone] at hissue
      cases hissue
    rw [hsome] at hissue
    cases hissue
    have hle : (capRun s (before ++ [call])).releases call.recipient slot
        ≤ (capRun s (before ++ call :: after)).releases call.recipient slot := by
      rw [List.append_cons before call after, capRun_append s (before ++ [call]) after]
      exact releases_le_run _ _ _ _
    have hgen : ((capRun s (before ++ [call])).objects.caps.entry call.recipient slot).generation
        = ((capRun s before).objects.caps.entry call.recipient slot).generation := by
      rw [capRun_append]
      show ((capCall _ call).2.caps.entry _ _).generation = _
      rw [hopen.eq, entry_setEntry, if_pos ⟨rfl, rfl⟩]
    refine ⟨slot, _, decodeHandle_entry _ hpid hopen.slot_lt, fun q right v => ?_⟩
    rw [capabilityResolveObject_eq_some, ← generation_eq_iff hI₁ hI₂ hle, hgen,
      decodeHandle_entry _ hpid hopen.slot_lt]
    constructor
    · rintro ⟨slot', hd, -, hop, hv, hright⟩
      simp only [Option.some.injEq, Prod.mk.injEq] at hd
      obtain ⟨rfl, rfl, hg⟩ := hd
      exact ⟨rfl, hop, hg, by rw [hI₂.stored _ _ hop, hv], hright⟩
    · rintro ⟨rfl, hop, hg, hv, hright⟩
      refine ⟨slot, by rw [hg], hopen.slot_lt, hop, ?_, hright⟩
      rw [hv, hI₂.stored _ _ hop]
  · obtain ⟨hp, hi'⟩ := hI₂.open_lt p i hi
    have hdec := decodeHandle_entry (capRun s (before ++ call :: after)).objects.caps hp hi'
    rw [← hI₂.issued p i hi] at hdec
    refine ⟨fun h0 => ?_, fun hij heq => hij ?_⟩
    · rw [h0] at hdec
      cases hdec
    · obtain ⟨-, hj'⟩ := hI₂.open_lt p j hj
      have hdec' := decodeHandle_entry (capRun s (before ++ call :: after)).objects.caps hp hj'
      rw [← hI₂.issued p j hj, ← heq, hdec] at hdec'
      simp only [Option.some.injEq, Prod.mk.injEq, true_and] at hdec'
      exact hdec'.1

/-- The console handle of the first process goes stale once it is closed, and stays so when another
process's call comes in between. -/
theorem issued_handle_resolves_iff_console :
    (capCall (capRun {} []).objects (.openService 1 1)).1 = some 0x10100
      ∧ (capRun {} [.openService 1 1, .openFile 2 3]).objects.caps.capabilityResolveObject 1
          0x10100 rightWrite = some { service := .console, rights := rightWrite, objectId := 0 }
      ∧ (capRun {} [.openService 1 1, .close 1 0x10100]).objects.caps.capabilityResolveObject 1
          0x10100 rightWrite = none := by
  have hissue : (capCall (capRun {} []).objects (.openService 1 1)).1 = some 0x10100 := by decide
  refine ⟨hissue, ?_, by decide⟩
  obtain ⟨⟨i, g, hdec, hiff⟩, -⟩ :=
    issued_handle_resolves_iff {} [] [.openFile 2 3] (.openService 1 1) hissue
  have hi : decodeHandle 0x10100 = some (1, 0, 1) := by decide
  rw [hi] at hdec
  cases hdec
  exact (hiff 1 rightWrite _).2 ⟨rfl, by decide, by decide, by decide, by decide⟩

end DemonOS
