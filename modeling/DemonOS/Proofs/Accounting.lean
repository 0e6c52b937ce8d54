import DemonOS.IpcCounters
import DemonOS.Proofs.Parking
import Mathlib.Algebra.BigOperators.Fin

/-!
# What the message counters count

A run with its counters, the number of messages accepted and the number lost with their channels.
A message handed on leaves what is queued, a message accepted joins it (`step_queued`), so the
counters balance as long as they count both. The message of a parked sender is accepted without
being counted: the counters balance along a run just when no receive lets such a message in
(`counters_balanced_iff`).
-/

namespace DemonOS

namespace Kernel

def queuedIn (k : Kernel) (i : ℕ) : ℕ :=
  if (k.ipc.channels i).active then (k.ipc.channels i).count else 0

/-- The number of messages in active channels. -/
def queued (k : Kernel) : ℕ := ∑ i ∈ Finset.range ipcChannelLimit, k.queuedIn i

def discardedIn (k : Kernel) (e : Event) (i : ℕ) : ℕ :=
  if ((k.step e).ipc.channels i).active then 0 else k.queuedIn i

def discarded (k : Kernel) (e : Event) : ℕ :=
  ∑ i ∈ Finset.range ipcChannelLimit, k.discardedIn e i

def acceptedCount (k : Kernel) (e : Event) : ℕ :=
  ∑ i ∈ Finset.range ipcChannelLimit, (k.accepted i e).length

def handedCount (k : Kernel) (e : Event) : ℕ :=
  ∑ i ∈ Finset.range ipcChannelLimit, (k.handed i e).length

/-- The messages that were queued or came in are handed on, lost or still queued. -/
theorem step_queued {k : Kernel} (hk : Calm k) (e : Event) :
    (k.step e).queued + k.discarded e + k.handedCount e = k.queued + k.acceptedCount e := by
  unfold queued discarded handedCount acceptedCount
  rw [← Finset.sum_add_distrib, ← Finset.sum_add_distrib, ← Finset.sum_add_distrib]
  refine Finset.sum_congr rfl fun i _ => ?_
  have hturn := step_turn hk e i
  unfold discardedIn queuedIn
  generalize (k.step e).ipc.channels i = c at hturn ⊢
  generalize k.accepted i e = ins at hturn ⊢
  generalize k.handed i e = outs at hturn ⊢
  cases hturn with
  | keeps h =>
    cases hactive : c.active with
    | true =>
      obtain hkept := h hactive
      simp [hkept.active, hkept.count]
    | false => simp
  | opens user dead => simp [dead]
  | waits live => simp [live]
  | passes live => simp [live, IpcChannel.clearWaiter]
  | accepts live => simp [live, IpcChannel.push]
  | parks user live => simp [live]
  | takes live some =>
    simp only [live, IpcChannel.pop, if_true, List.length_nil, List.length_singleton]
    omega
  | refills live some =>
    simp only [live, IpcChannel.pop, IpcChannel.clearSender, IpcChannel.push, if_true,
      List.length_singleton]
    omega

/-! ## What an event adds -/

def Refills (k : Kernel) : Event → Prop
  | .syscall f _ _ => ∃ i ∈ k.receiveTarget f, k.Takes f i ∧ (k.ipc.channels i).sender.active = true
  | _ => False

instance decidableRefills (k : Kernel) : ∀ e, Decidable (k.Refills e)
  | .syscall _ _ _ => inferInstanceAs (Decidable (∃ i ∈ _, _))
  | .timerTick _ => isFalse id
  | .input _ => isFalse id
  | .kernel _ => isFalse id

def Sends (k : Kernel) : Event → Prop
  | .syscall f user _ => (k.sendTarget f).isSome = true ∧ k.sendSucceeds f user
  | _ => False

section

variable {k : Kernel} {f : Frame} {i j : ℕ}

theorem sum_one {g : ℕ → ℕ} (hi : i < ipcChannelLimit) (h : ∀ j, j ≠ i → g j = 0) :
    ∑ j ∈ Finset.range ipcChannelLimit, g j = g i :=
  Finset.sum_eq_single_of_mem i (Finset.mem_range.2 hi) fun j _ hj => h j hj

theorem resolve_bound {handle : ℕ} {right : BitVec 32}
    (h : k.ipc.resolve k.objects.caps k.current handle right = some i) : i < ipcChannelLimit := by
  unfold Ipc.resolve at h
  split at h
  · cases h
  · unfold Ipc.byId at h
    split_ifs at h
    have := Option.some.inj h
    omega

theorem send_counts (user : ℕ → UInt8) (dev : Devices) (hi : k.sendTarget f = some i)
    (hs : k.sendSucceeds f user) :
    k.acceptedCount (.syscall f user dev) = 1
      ∧ k.handedCount (.syscall f user dev)
        = if (k.ipc.channels i).waiter.active = true then 1 else 0 := by
  obtain ⟨-, h16, hresolve⟩ := sendTarget_eq_some hi
  have htakes : ∀ j, ¬k.Takes f j := by
    rintro j ⟨h, -⟩
    obtain ⟨-, h17 | h26, -⟩ := receiveTarget_eq_some h
    · omega
    · omega
  have hother : ∀ j, j ≠ i → k.sendTarget f ≠ some j := by
    intro j hj h
    rw [hi] at h
    exact hj (Option.some.inj h).symm
  have hbound := resolve_bound hresolve
  unfold acceptedCount handedCount
  rw [sum_one hbound fun j hj => by simp [accepted, hother j hj, htakes j],
    sum_one hbound fun j hj => by simp [handed, hother j hj, htakes j]]
  unfold accepted handed
  simp only [hi, hs, htakes, true_and, false_and, if_true, if_false, List.length_singleton]
  split_ifs <;> rfl

theorem take_counts (hk : ProcInv k) (user : ℕ → UInt8) (dev : Devices) (ht : k.Takes f i) :
    k.acceptedCount (.syscall f user dev)
        = (if (k.ipc.channels i).sender.active = true then 1 else 0)
      ∧ k.handedCount (.syscall f user dev) = 1 := by
  obtain ⟨-, hnumber, hresolve⟩ := receiveTarget_eq_some ht.1
  have hsend : ∀ j, k.sendTarget f ≠ some j := by
    intro j h
    obtain ⟨-, h16, -⟩ := sendTarget_eq_some h
    omega
  have hother : ∀ j, j ≠ i → ¬k.Takes f j := by
    rintro j hj ⟨h, -⟩
    rw [ht.1] at h
    exact hj (Option.some.inj h).symm
  have hcopies : k.userspaceCopyTo k.current (receiveBuffer f).1
      (k.ipc.channels i).head.data.length = true := by
    obtain ⟨r, hr⟩ := Option.isSome_iff_exists.1 ht.2
    obtain ⟨m, k₁⟩ := r
    obtain ⟨l, hl, -, rfl, hlength, -⟩ := ipcReceive_eq hr
    obtain rfl : i = l := Option.some.inj (hresolve.symm.trans hl)
    exact receiveTarget_copies hk ht.1 hlength
  have hbound := resolve_bound hresolve
  unfold acceptedCount handedCount
  rw [sum_one hbound fun j hj => by simp [accepted, hsend j, hother j hj],
    sum_one hbound fun j hj => by simp [handed, hsend j, hother j hj]]
  unfold accepted handed
  simp only [hsend, ht, hcopies, true_and, false_and, if_true, if_false]
  split_ifs <;> exact ⟨rfl, rfl⟩

theorem idle_counts (user : ℕ → UInt8) (dev : Devices)
    (hsend : ∀ i, k.sendTarget f = some i → ¬k.sendSucceeds f user) (htakes : ∀ i, ¬k.Takes f i) :
    k.acceptedCount (.syscall f user dev) = 0 ∧ k.handedCount (.syscall f user dev) = 0 := by
  have haccepted : ∀ i, k.accepted i (.syscall f user dev) = [] := by
    intro i
    unfold accepted
    dsimp only
    rw [if_neg fun h => hsend i h.1 h.2, if_neg fun h => htakes i h.1]
  have hhanded : ∀ i, k.handed i (.syscall f user dev) = [] := by
    intro i
    unfold handed
    dsimp only
    rw [if_neg fun h => hsend i h.1 h.2.1, if_neg fun h => htakes i h.1]
  exact ⟨Finset.sum_eq_zero fun i _ => by rw [haccepted]; rfl,
    Finset.sum_eq_zero fun i _ => by rw [hhanded]; rfl⟩

theorem countSend_counts (n : IpcCounters) {pid handle : ℕ} {data : List UInt8} (block : Bool)
    (hi : k.ipc.resolve k.objects.caps pid handle rightSend = some i)
    (hdata : ¬(data.length = 0 ∨ ipcMessageMax < data.length)) :
    (k.countSend n pid handle data block).sent
        = (if (k.ipcSendImpl pid handle data block).1 = .delivered then n.sent + 1 else n.sent)
      ∧ (k.countSend n pid handle data block).received
        = if (k.ipcSendImpl pid handle data block).1 = .delivered
            ∧ (k.ipc.channels i).waiter.active = true then n.received + 1 else n.received := by
  have hsend : (k.ipcSendImpl pid handle data block).1
      = if (k.ipc.channels i).waiter.active = true then (k.deliverToWaiter i pid data).1
        else if (k.ipc.channels i).count = ipcQueueDepth then
          if (!block || (k.ipc.channels i).sender.active) = true then .failed else .parked
        else .delivered := by
    unfold ipcSendImpl
    rw [hi]
    dsimp only
    split_ifs <;> rfl
  rw [hsend]
  unfold countSend
  rw [hi]
  by_cases hwaiter : (k.ipc.channels i).waiter.active = true
  · simp only [hwaiter, if_true, and_true]
    split_ifs <;> exact ⟨rfl, rfl⟩
  · simp only [hwaiter]
    split_ifs <;> simp_all

theorem sendTarget_checks (user : ℕ → UInt8) (hi : k.sendTarget f = some i) :
    (!k.canRead f.rsi f.rdx || f.rdx == 0 || ipcMessageMax < f.rdx.toNat) = false
      ∧ ¬((readUser user f.rsi.toNat f.rdx.toNat).length = 0
        ∨ ipcMessageMax < (readUser user f.rsi.toNat f.rdx.toNat).length) := by
  have hcheck : (!k.canRead f.rsi f.rdx || f.rdx == 0 || ipcMessageMax < f.rdx.toNat) = false := by
    unfold sendTarget at hi
    split_ifs at hi with hc
    exact hc.2.2
  refine ⟨hcheck, ?_⟩
  simp only [Bool.or_eq_false_iff, decide_eq_false_iff_not] at hcheck
  have hlength : (readUser user f.rsi.toNat f.rdx.toNat).length = f.rdx.toNat := by
    simp [readUser]
  rw [hlength]
  rintro (h | h)
  · exact absurd (UInt64.toNat_inj.1 h) (by simpa using hcheck.1.2)
  · exact hcheck.2 h

theorem countEvent_send (n : IpcCounters) (user : ℕ → UInt8) (dev : Devices)
    (hi : k.sendTarget f = some i) :
    (k.countEvent n (.syscall f user dev)).sent
        = (if k.sendSucceeds f user then n.sent + 1 else n.sent)
      ∧ (k.countEvent n (.syscall f user dev)).received
        = if k.sendSucceeds f user ∧ (k.ipc.channels i).waiter.active = true then n.received + 1
          else n.received := by
  obtain ⟨hu, h16, hresolve⟩ := sendTarget_eq_some hi
  obtain ⟨hcheck, hdata⟩ := sendTarget_checks user hi
  have hcount : k.countEvent n (.syscall f user dev) = (k.enter f).countSend n k.current f.rdi.toNat
      (readUser user f.rsi.toNat f.rdx.toNat) true := by
    unfold countEvent countSyscall
    dsimp only
    rw [if_pos hu, if_pos h16, show (!(k.enter f).canRead f.rsi f.rdx || f.rdx == 0
      || ipcMessageMax < f.rdx.toNat) = false from hcheck]
    rfl
  rw [hcount]
  exact countSend_counts (k := k.enter f) n true hresolve hdata

theorem countEvent_take (n : IpcCounters) (user : ℕ → UInt8) (dev : Devices)
    (ht : k.Takes f i) :
    (k.countEvent n (.syscall f user dev)).sent = n.sent
      ∧ (k.countEvent n (.syscall f user dev)).received = n.received + 1 := by
  obtain ⟨hu, hnumber, hresolve⟩ := receiveTarget_eq_some ht.1
  have hcount : k.countEvent n (.syscall f user dev) = (k.enter f).countReceive n k.current
      f.rdi.toNat (receiveBuffer f).2 := by
    unfold countEvent countSyscall receiveBuffer
    dsimp only
    rw [if_pos hu]
    rcases hnumber with ⟨h17, hvalid⟩ | ⟨h26, hvalid⟩
    · have h16 : f.rax.toNat ≠ 16 := by omega
      rw [if_neg h16, if_pos h17, if_pos h17,
        show (k.enter f).validBuffer f = true from hvalid]
      rfl
    · have h16 : f.rax.toNat ≠ 16 := by omega
      have h17 : f.rax.toNat ≠ 17 := by omega
      rw [if_neg h16, if_neg h17, if_pos h26, if_neg h17,
        show (k.enter f).validSelect f = true from hvalid]
      rfl
  rw [hcount]
  unfold countReceive
  rw [if_pos ht.2]
  exact ⟨rfl, rfl⟩

theorem countEvent_idle (n : IpcCounters) (user : ℕ → UInt8) (dev : Devices)
    (hsend : k.sendTarget f = none) (htakes : ∀ i, ¬k.Takes f i) :
    (k.countEvent n (.syscall f user dev)).sent = n.sent
      ∧ (k.countEvent n (.syscall f user dev)).received = n.received := by
  have hreceive : ∀ {capacity : ℕ}, (receiveBuffer f).2 = capacity →
      (f.rax.toNat = 17 ∧ k.validBuffer f = true ∨ f.rax.toNat = 26 ∧ k.validSelect f = true) →
      k.userMode → (k.enter f).countReceive n k.current f.rdi.toNat capacity = n := by
    rintro capacity rfl hnumber hu
    unfold countReceive
    rw [if_neg]
    intro hsome
    obtain ⟨⟨m, k₁⟩, hr⟩ := Option.isSome_iff_exists.1 hsome
    obtain ⟨i, hi, -⟩ := ipcReceive_eq hr
    refine htakes i ⟨?_, hsome⟩
    unfold receiveTarget
    rw [if_pos ⟨hu, hnumber⟩]
    exact hi
  unfold countEvent
  split_ifs with hu
  swap
  · exact ⟨rfl, rfl⟩
  unfold countSyscall
  dsimp only
  split_ifs with h16 hcheck h17 hbuffer h26 hselect
  · exact ⟨rfl, rfl⟩
  · unfold countSend
    have hnone : k.ipc.resolve k.objects.caps k.current f.rdi.toNat rightSend = none := by
      unfold sendTarget at hsend
      rw [Bool.not_eq_true] at hcheck
      rwa [if_pos ⟨hu, h16, hcheck⟩] at hsend
    rw [show (k.enter f).ipc.resolve (k.enter f).objects.caps (k.enter f).current f.rdi.toNat
      rightSend = none from hnone]
    exact ⟨rfl, rfl⟩
  · exact ⟨rfl, rfl⟩
  · have hvalid : k.validBuffer f = true := by
      rw [Bool.not_eq_true, Bool.not_eq_false'] at hbuffer
      exact hbuffer
    rw [show (k.enter f).current = k.current from rfl,
      hreceive (by simp [receiveBuffer, h17]) (.inl ⟨h17, hvalid⟩) hu]
    exact ⟨rfl, rfl⟩
  · exact ⟨rfl, rfl⟩
  · have hvalid : k.validSelect f = true := by
      rw [Bool.not_eq_true, Bool.not_eq_false'] at hselect
      exact hselect
    rw [show (k.enter f).current = k.current from rfl,
      hreceive (by simp [receiveBuffer, h26]) (.inr ⟨h26, hvalid⟩) hu]
    exact ⟨rfl, rfl⟩
  · exact ⟨rfl, rfl⟩

end

/-! ## Runs -/

/-- A kernel with its counters, the number of messages whose send succeeded, and the number lost
with their channels. -/
structure Counted where
  kernel : Kernel
  counters : IpcCounters := {}
  accepted : ℕ := 0
  discarded : ℕ := 0

namespace Counted

def step (s : Counted) (e : Event) : Counted where
  kernel := s.kernel.step e
  counters := s.kernel.countEvent s.counters e
  accepted := s.accepted + s.kernel.acceptedCount e
  discarded := s.discarded + s.kernel.discarded e

/-- Every message accepted is counted as sent once, and what is not received is queued or was
discarded. -/
structure Balanced (s : Counted) : Prop where
  sent : s.counters.sent.toNat = s.accepted
  le : s.counters.received ≤ s.counters.sent
  rest : (s.counters.sent - s.counters.received).toNat = s.kernel.queued + s.discarded

def Overflows (s : Counted) (e : Event) : Prop := s.kernel.Sends e ∧ s.counters.sent = u64Max

end Counted

theorem balanced_iff {s : Counted} : s.Balanced ↔ s.counters.sent.toNat = s.accepted
    ∧ s.counters.sent.toNat = s.counters.received.toNat + s.kernel.queued + s.discarded := by
  constructor
  · rintro ⟨hsent, hle, hrest⟩
    rw [UInt64.toNat_sub_of_le _ _ hle] at hrest
    rw [UInt64.le_iff_toNat_le] at hle
    exact ⟨hsent, by omega⟩
  · rintro ⟨hsent, hrest⟩
    have hle : s.counters.received ≤ s.counters.sent := by
      rw [UInt64.le_iff_toNat_le]
      omega
    refine ⟨hsent, hle, ?_⟩
    rw [UInt64.toNat_sub_of_le _ _ hle]
    omega

theorem ne_u64Max_iff {n : UInt64} : n ≠ u64Max ↔ n.toNat + 1 < 2 ^ 64 := by
  have hlt := n.toNat_lt
  have hmax : u64Max.toNat = 2 ^ 64 - 1 := by decide
  rw [ne_eq, ← UInt64.toNat_inj, hmax]
  omega

theorem toNat_succ {n : UInt64} (h : n ≠ u64Max) : (n + 1).toNat = n.toNat + 1 := by
  rw [UInt64.toNat_add, UInt64.toNat_one, Nat.mod_eq_of_lt (ne_u64Max_iff.1 h)]

section

variable {s : Counted} {f : Frame} {i : ℕ} (user : ℕ → UInt8) (dev : Devices)

theorem idle_balanced {e : Event} (hk : Calm s.kernel) (hs : s.Balanced)
    (hcounts : s.kernel.acceptedCount e = 0 ∧ s.kernel.handedCount e = 0)
    (hcounters : (s.kernel.countEvent s.counters e).sent = s.counters.sent
      ∧ (s.kernel.countEvent s.counters e).received = s.counters.received) :
    (s.step e).Balanced := by
  obtain ⟨hsent, hrest⟩ := balanced_iff.1 hs
  have hqueued := step_queued hk e
  rw [balanced_iff]
  unfold Counted.step
  dsimp only
  rw [hcounters.1, hcounters.2, hcounts.1]
  exact ⟨hsent, by omega⟩

theorem send_balanced (hk : Calm s.kernel) (hs : s.Balanced)
    (hi : s.kernel.sendTarget f = some i) (hsucceeds : s.kernel.sendSucceeds f user) :
    (s.step (.syscall f user dev)).Balanced ↔ s.counters.sent ≠ u64Max := by
  obtain ⟨hsent, hrest⟩ := balanced_iff.1 hs
  have hqueued := step_queued hk (.syscall f user dev)
  obtain ⟨haccepted, hhanded⟩ := send_counts user dev hi hsucceeds
  obtain ⟨hcount, hreceived⟩ := countEvent_send s.counters user dev hi
  rw [if_pos hsucceeds] at hcount
  simp only [hsucceeds, true_and] at hreceived
  rw [balanced_iff]
  unfold Counted.step
  dsimp only
  rw [hcount, hreceived, haccepted]
  rw [haccepted, hhanded] at hqueued
  by_cases hmax : s.counters.sent = u64Max
  · refine iff_of_false (fun h => ?_) (not_not.2 hmax)
    have hzero := h.1
    rw [hmax, show u64Max + 1 = 0 by decide, UInt64.toNat_zero] at hzero
    omega
  · refine iff_of_true ⟨?_, ?_⟩ hmax
    · rw [toNat_succ hmax, hsent]
    · rw [toNat_succ hmax]
      split_ifs at hqueued ⊢ with hwaiter
      · have hlt := ne_u64Max_iff.1 hmax
        rw [toNat_succ (ne_u64Max_iff.2 (by omega))]
        omega
      · omega

theorem take_balanced (hk : Calm s.kernel) (hs : s.Balanced) (ht : s.kernel.Takes f i) :
    (s.step (.syscall f user dev)).Balanced
      ↔ (s.kernel.ipc.channels i).sender.active = false := by
  obtain ⟨hsent, hrest⟩ := balanced_iff.1 hs
  have hqueued := step_queued hk (.syscall f user dev)
  obtain ⟨haccepted, hhanded⟩ := take_counts hk.procs user dev ht
  obtain ⟨hcount, hreceived⟩ := countEvent_take s.counters user dev ht
  rw [balanced_iff]
  unfold Counted.step
  rw [hcount, hreceived, haccepted]
  rw [haccepted, hhanded] at hqueued
  cases hparked : (s.kernel.ipc.channels i).sender.active with
  | true =>
    refine iff_of_false (fun h => ?_) (by simp)
    have hone : s.counters.sent.toNat = s.accepted + 1 := h.1
    omega
  | false =>
    rw [hparked] at hqueued
    simp only [Bool.false_eq_true, if_false] at hqueued ⊢
    have hlt := s.counters.sent.toNat_lt
    rw [toNat_succ (ne_u64Max_iff.2 (by omega))]
    exact iff_of_true ⟨hsent, by omega⟩ trivial

end

theorem step_balanced {s : Counted} (hk : Calm s.kernel) (hs : s.Balanced) (e : Event) :
    (s.step e).Balanced ↔ ¬s.kernel.Refills e ∧ ¬s.Overflows e := by
  cases e with
  | syscall f user dev =>
    by_cases hsends : s.kernel.Sends (.syscall f user dev)
    · obtain ⟨i, hi⟩ := Option.isSome_iff_exists.1 hsends.1
      have hrefills : ¬s.kernel.Refills (.syscall f user dev) := by
        rintro ⟨j, hj, -⟩
        obtain ⟨-, h16, -⟩ := sendTarget_eq_some hi
        obtain ⟨-, hnumber, -⟩ := receiveTarget_eq_some hj
        omega
      rw [send_balanced user dev hk hs hi hsends.2]
      exact ⟨fun h => ⟨hrefills, fun ho => h ho.2⟩, fun h hmax => h.2 ⟨hsends, hmax⟩⟩
    · have hoverflows : ¬s.Overflows (.syscall f user dev) := fun h => hsends h.1
      by_cases htakes : ∃ i, s.kernel.Takes f i
      · obtain ⟨i, ht⟩ := htakes
        rw [take_balanced user dev hk hs ht, ← Bool.not_eq_true]
        refine ⟨fun h => ⟨?_, hoverflows⟩, fun h hparked => h.1 ⟨i, ht.1, ht, hparked⟩⟩
        rintro ⟨j, hj, -, hparked⟩
        obtain rfl : i = j := Option.some.inj (ht.1.symm.trans hj)
        exact h hparked
      · have hnone : ∀ i, ¬s.kernel.Takes f i := fun i h => htakes ⟨i, h⟩
        have hfails : ∀ i, s.kernel.sendTarget f = some i → ¬s.kernel.sendSucceeds f user :=
          fun i hi h => hsends ⟨by rw [hi]; rfl, h⟩
        refine iff_of_true (idle_balanced hk hs (idle_counts user dev hfails hnone) ?_)
          ⟨fun ⟨i, _, ht, _⟩ => hnone i ht, hoverflows⟩
        cases hi : s.kernel.sendTarget f with
        | none => exact countEvent_idle s.counters user dev hi hnone
        | some i =>
          obtain ⟨hcount, hreceived⟩ := countEvent_send s.counters user dev hi
          rw [if_neg (hfails i hi)] at hcount
          rw [if_neg fun h => hfails i hi h.1] at hreceived
          exact ⟨hcount, hreceived⟩
  | _ =>
    exact iff_of_true (idle_balanced hk hs ⟨Finset.sum_const_zero, Finset.sum_const_zero⟩
      ⟨rfl, rfl⟩) ⟨id, fun h => h.1⟩

theorem fresh_balanced (b : BootInfo) : Counted.Balanced { kernel := fresh b } := by
  rw [balanced_iff]
  refine ⟨rfl, ?_⟩
  have hqueued : (fresh b).queued = 0 := Finset.sum_eq_zero fun i _ => rfl
  rw [hqueued]
  rfl

/-- The counters balance in every state of a run just when no receive of it takes a message off a
channel with a parked sender, and no send of it overflows the number of messages sent. -/
theorem counters_balanced_iff (b : BootInfo) (events : List Event) :
    (∀ before, before <+: events →
        (Machine.run Counted.step { kernel := fresh b } before).Balanced)
      ↔ Machine.Meets Counted.step (fun s e => ¬s.kernel.Refills e ∧ ¬s.Overflows e)
        { kernel := fresh b } events := by
  rw [Machine.prefixes_iff Counted.step events _ (fresh_balanced b)]
  exact Machine.meets_congr Counted.step (I := fun s => Calm s.kernel ∧ s.Balanced)
    (fun s e hs => step_balanced hs.1 hs.2 e) (fun s e hs h => ⟨step_calm hs.1 e, h⟩) events _
    ⟨fresh_calm b, fresh_balanced b⟩

/-! ## A parked message that is not counted -/

theorem acceptedCount_le_one {k : Kernel} (hk : ProcInv k) (e : Event) : k.acceptedCount e ≤ 1 := by
  cases e with
  | syscall f user dev =>
    by_cases hsends : k.Sends (.syscall f user dev)
    · obtain ⟨i, hi⟩ := Option.isSome_iff_exists.1 hsends.1
      exact (send_counts user dev hi hsends.2).1.le
    · by_cases htakes : ∃ i, k.Takes f i
      · obtain ⟨i, ht⟩ := htakes
        rw [(take_counts hk user dev ht).1]
        split_ifs <;> decide
      · rw [(idle_counts user dev (fun i hi h => hsends ⟨by rw [hi]; rfl, h⟩)
          fun i h => htakes ⟨i, h⟩).1]
        exact Nat.zero_le 1
  | _ => exact (Finset.sum_const_zero.trans_le (Nat.zero_le 1))

theorem run_counted_kernel (es : List Event) (s : Counted) :
    (Machine.run Counted.step s es).kernel = Machine.run step s.kernel es := by
  induction es generalizing s with
  | nil => rfl
  | cons e es ih => exact ih (s.step e)

theorem run_balanced : ∀ (es : List Event) (s : Counted), Calm s.kernel → s.Balanced →
    s.accepted + es.length < 2 ^ 64 → Machine.Meets step (fun k e => ¬k.Refills e) s.kernel es →
      (Machine.run Counted.step s es).Balanced
  | [], _, _, hs, _, _ => hs
  | e :: es, s, hk, hs, hlength, hmeets => by
    rw [List.length_cons] at hlength
    have hone := acceptedCount_le_one hk.procs e
    have hoverflows : ¬s.Overflows e := fun h =>
      ne_u64Max_iff.2 (by rw [hs.sent]; omega) h.2
    have hstep := (step_balanced hk hs e).2 ⟨hmeets.1, hoverflows⟩
    refine run_balanced es (s.step e) (step_calm hk e) hstep ?_ hmeets.2
    change s.accepted + s.kernel.acceptedCount e + es.length < 2 ^ 64
    omega

theorem take_queued {k : Kernel} {f : Frame} {i : ℕ} (ht : k.Takes f i) : 0 < k.queued := by
  have hresolve := (receiveTarget_eq_some ht.1).2.2
  obtain ⟨⟨m, k₁⟩, hr⟩ := Option.isSome_iff_exists.1 ht.2
  obtain ⟨j, hj, hcount, -⟩ := ipcReceive_eq hr
  obtain rfl : i = j := Option.some.inj (hresolve.symm.trans hj)
  have hone : k.queuedIn i ≤ k.queued :=
    Finset.single_le_sum (f := k.queuedIn) (fun _ _ => Nat.zero_le _)
      (Finset.mem_range.2 (resolve_bound hresolve))
  have hqueued : k.queuedIn i = (k.ipc.channels i).count := if_pos (resolve_active hresolve)
  exact lt_of_lt_of_le (Nat.pos_of_ne_zero (by rw [hqueued]; exact hcount)) hone

/-- The message of a parked sender that gets in is missing from the messages sent. -/
theorem refill_law {s : Counted} {e : Event} (hk : Calm s.kernel) (hs : s.Balanced)
    (h : s.kernel.Refills e) : (s.step e).counters.sent.toNat + 1
      = (s.step e).counters.received.toNat + (s.step e).kernel.queued + (s.step e).discarded := by
  obtain ⟨hsent, hrest⟩ := balanced_iff.1 hs
  have hqueued := step_queued hk e
  cases e with
  | syscall f user dev =>
    obtain ⟨i, -, ht, hparked⟩ := h
    obtain ⟨haccepted, hhanded⟩ := take_counts hk.procs user dev ht
    obtain ⟨hcount, hreceived⟩ := countEvent_take s.counters user dev ht
    rw [if_pos hparked] at haccepted
    have hqueue := take_queued ht
    have hlt := s.counters.sent.toNat_lt
    unfold Counted.step
    dsimp only
    rw [hcount, hreceived, toNat_succ (ne_u64Max_iff.2 (by omega))]
    omega
  | _ => cases h

def fullSend : List Event :=
  [call { rax := 1 }, call { rax := 15, rdi := 0x330000, rsi := 1 },
    call { rax := 16, rdi := 0x10200, rsi := 0x330000, rdx := 1 }]

/-- The first process fills its channel, and receives after a second one has sent to it. -/
def handover : List Event :=
  (parkedStart ++ List.replicate 32 (call parkedSend)) ++ fullSend
    ++ [call { rax := 17, rdi := 0x10100, rsi := 0x330000, rdx := 8 }]

theorem fullSend_balanced :
    (Machine.run Counted.step { kernel := fresh smallBoot }
      ((parkedStart ++ List.replicate 32 (call parkedSend)) ++ fullSend)).Balanced := by
  refine run_balanced _ _ (fresh_calm smallBoot) (fresh_balanced smallBoot) (by decide) ?_
  have hfull := run_parkedStart
  unfold runFrom at hfull
  rw [Machine.meets_append, Machine.meets_append, hfull]
  refine ⟨⟨by decide +kernel, Machine.meets_of_forall step _ _ fun k e he => ?_⟩, by decide +kernel⟩
  rw [List.eq_of_mem_replicate he]
  rintro ⟨i, hi, -⟩
  obtain ⟨-, hnumber, -⟩ := receiveTarget_eq_some hi
  have h16 : parkedSend.rax.toNat = 16 := rfl
  omega

/-- The parked message has been handed over, and the counters are one message short. -/
theorem handover_uncounted :
    ¬((Machine.run Counted.step { kernel := fresh smallBoot } handover).counters.received
          ≤ (Machine.run Counted.step { kernel := fresh smallBoot } handover).counters.sent
        ∧ ((Machine.run Counted.step { kernel := fresh smallBoot } handover).counters.sent
            - (Machine.run Counted.step { kernel := fresh smallBoot } handover).counters.received).toNat
          = (Machine.run Counted.step { kernel := fresh smallBoot } handover).kernel.queued
            + (Machine.run Counted.step { kernel := fresh smallBoot } handover).discarded) := by
  unfold handover
  rw [Machine.run_concat]
  have hbalanced := fullSend_balanced
  have hkernel := run_counted_kernel
    ((parkedStart ++ List.replicate 32 (call parkedSend)) ++ fullSend)
    { kernel := fresh smallBoot }
  generalize Machine.run Counted.step { kernel := fresh smallBoot }
    ((parkedStart ++ List.replicate 32 (call parkedSend)) ++ fullSend) = s at hbalanced hkernel ⊢
  have hfull := run_parkedStart
  unfold runFrom at hfull
  rw [Machine.run_append, hfull] at hkernel
  have hcalm : Calm s.kernel := by
    rw [hkernel, ← hfull, ← Machine.run_append]
    exact runFrom_calm smallBoot _
  have hlaw := refill_law hcalm hbalanced
    (e := call { rax := 17, rdi := 0x10100, rsi := 0x330000, rdx := 8 }) (by
      rw [hkernel]
      decide +kernel)
  rintro ⟨hle, hrest⟩
  rw [UInt64.toNat_sub_of_le _ _ hle] at hrest
  rw [UInt64.le_iff_toNat_le] at hle
  omega

end Kernel

end DemonOS
