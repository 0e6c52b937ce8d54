import DemonOS.Lib.Queues
import DemonOS.Proofs.Sleepers

/-!
# Messages that go in and come out

What an event does to a channel (`Turn`), with the messages whose send it lets succeed (`accepted`)
and the messages it hands to a receiver (`handed`), through the ring or past it. Every event takes
each channel one turn (`step_turn`).
-/

namespace DemonOS

namespace IpcChannel

def queue (c : IpcChannel) : List IpcMessage :=
  Ring.contents ipcQueueDepth c.messages c.read c.count

def head (c : IpcChannel) : IpcMessage := c.messages c.read

def staged (c : IpcChannel) : IpcMessage := { sender := c.sender.pid, data := c.sender.data }

end IpcChannel

namespace Kernel

variable {f : Frame} {k : Kernel}

/-! ## Sends and receives -/

/-- The channel a send system call names, where its other arguments pass the checks. -/
def sendTarget (k : Kernel) (f : Frame) : Option ℕ :=
  if k.userMode ∧ f.rax.toNat = 16
      ∧ (!k.canRead f.rsi f.rdx || f.rdx == 0 || ipcMessageMax < f.rdx.toNat) = false then
    k.ipc.resolve k.objects.caps k.current f.rdi.toNat rightSend
  else none

def SendsTo (k : Kernel) (i : ℕ) : Event → Prop
  | .syscall f _ _ => k.sendTarget f = some i
  | _ => False

def sentMessage (k : Kernel) (f : Frame) (user : ℕ → UInt8) : IpcMessage :=
  { sender := k.current, data := readUser user f.rsi.toNat f.rdx.toNat }

def sendSucceeds (k : Kernel) (f : Frame) (user : ℕ → UInt8) : Prop :=
  ((k.enter f).ipcSendBlock k.current f.rdi.toNat (k.sentMessage f user).data).1 = .delivered

instance (k : Kernel) (f : Frame) (user : ℕ → UInt8) : Decidable (k.sendSucceeds f user) :=
  inferInstanceAs (Decidable (_ = _))

/-- The channel a receive or select system call names, where its other arguments pass the
checks. -/
def receiveTarget (k : Kernel) (f : Frame) : Option ℕ :=
  if k.userMode ∧ (f.rax.toNat = 17 ∧ k.validBuffer f = true
      ∨ f.rax.toNat = 26 ∧ k.validSelect f = true) then
    k.ipc.resolve k.objects.caps k.current f.rdi.toNat rightReceive
  else none

def receiveBuffer (f : Frame) : ℕ × ℕ :=
  if f.rax.toNat = 17 then (f.rsi.toNat, f.rdx.toNat) else (f.rdx.toNat, ipcMessageMax)

def Takes (k : Kernel) (f : Frame) (i : ℕ) : Prop :=
  k.receiveTarget f = some i
    ∧ ((k.enter f).ipcReceive k.current f.rdi.toNat (receiveBuffer f).2).isSome = true

instance (k : Kernel) (f : Frame) (i : ℕ) : Decidable (k.Takes f i) :=
  inferInstanceAs (Decidable (_ ∧ _))

/-- The message for channel `i` whose send the event lets succeed: one that is sent, or that of a
parked sender. -/
def accepted (k : Kernel) (i : ℕ) : Event → List IpcMessage
  | .syscall f user _ =>
    if k.sendTarget f = some i ∧ k.sendSucceeds f user then [k.sentMessage f user]
    else if k.Takes f i ∧ (k.ipc.channels i).sender.active = true then [(k.ipc.channels i).staged]
    else []
  | _ => []

/-- The message of channel `i` the event hands to a receiver: one that is sent while a process
waits for it, or the oldest of the ring, copied out. -/
def handed (k : Kernel) (i : ℕ) : Event → List IpcMessage
  | .syscall f user _ =>
    if k.sendTarget f = some i ∧ k.sendSucceeds f user
        ∧ (k.ipc.channels i).waiter.active = true then
      [k.sentMessage f user]
    else if k.Takes f i ∧ k.userspaceCopyTo k.current (receiveBuffer f).1
        (k.ipc.channels i).head.data.length = true then
      [(k.ipc.channels i).head]
    else []
  | _ => []

def ShortReceive (k : Kernel) (i : ℕ) : Event → Prop
  | .syscall f _ _ => f.rax.toNat = 17 ∧ f.r10 = 0 ∧ k.receiveTarget f = some i
      ∧ (k.ipc.channels i).count ≠ 0 ∧ f.rdx.toNat < (k.ipc.channels i).head.data.length
  | _ => False

instance decidableShortReceive (k : Kernel) (i : ℕ) : ∀ e, Decidable (k.ShortReceive i e)
  | .syscall _ _ _ => inferInstanceAs (Decidable (_ ∧ _))
  | .timerTick _ => isFalse id
  | .input _ => isFalse id
  | .kernel _ => isFalse id

/-- What an event may do to channel `i`, with the message accepted and the message handed on. -/
inductive Turn (k : Kernel) (e : Event) (i : ℕ) :
    IpcChannel → List IpcMessage → List IpcMessage → Prop
  | keeps {c : IpcChannel} (h : (k.ipc.channels i).Calms c)
    (stays : k.messageCall e → (k.ipc.channels i).active = true →
      c.active = true ∧ c.sender = (k.ipc.channels i).sender) : Turn k e i c [] []
  | opens (user : k.current ≠ 0) (dead : (k.ipc.channels i).active = false) (name : List UInt8) :
    Turn k e i { owner := k.current, name := name, active := true } [] []
  | waits (live : (k.ipc.channels i).active = true) (w : IpcWaiter)
    (short : (k.ipc.channels i).count ≠ 0 → k.ShortReceive i e
      ∨ ipcMessageMax < (k.ipc.channels i).head.data.length) :
    Turn k e i { k.ipc.channels i with waiter := w } [] []
  | passes (live : (k.ipc.channels i).active = true) (sends : k.SendsTo i e)
    (waits : (k.ipc.channels i).waiter.active = true) (m : IpcMessage) :
    Turn k e i (k.ipc.channels i).clearWaiter [m] [m]
  | accepts (live : (k.ipc.channels i).active = true)
    (idle : (k.ipc.channels i).waiter.active = false)
    (room : (k.ipc.channels i).count ≠ ipcQueueDepth) (m : IpcMessage)
    (fits : m.data.length ≤ ipcMessageMax) :
    Turn k e i ((k.ipc.channels i).push m) [m] []
  | parks (user : k.current ≠ 0) (live : (k.ipc.channels i).active = true)
    (idle : (k.ipc.channels i).waiter.active = false)
    (full : (k.ipc.channels i).count = ipcQueueDepth)
    (unparked : (k.ipc.channels i).sender.active = false) (data : List UInt8)
    (fits : data.length ≤ ipcMessageMax) :
    Turn k e i
      { k.ipc.channels i with sender := { pid := k.current, data := data, active := true } } [] []
  | takes (live : (k.ipc.channels i).active = true) (some : (k.ipc.channels i).count ≠ 0)
    (unparked : (k.ipc.channels i).sender.active = false) :
    Turn k e i (k.ipc.channels i).pop [] [(k.ipc.channels i).head]
  | refills (live : (k.ipc.channels i).active = true) (some : (k.ipc.channels i).count ≠ 0)
    (parked : (k.ipc.channels i).sender.active = true) :
    Turn k e i ((k.ipc.channels i).pop.clearSender.push (k.ipc.channels i).staged)
      [(k.ipc.channels i).staged] [(k.ipc.channels i).head]

/-! ## What the calls do to a channel -/

theorem ipcSendBlock_others {pid handle i j : ℕ} {data : List UInt8}
    (hj : k.ipc.resolve k.objects.caps pid handle rightSend = some j) (hne : i ≠ j) :
    (k.ipcSendBlock pid handle data).2.ipc.channels i = k.ipc.channels i := by
  have htake : (k.takeWaiter j).ipc.channels i = k.ipc.channels i := by
    rw [takeWaiter_ipc]
    simp [hne]
  unfold ipcSendBlock ipcSendImpl
  rw [hj]
  simp only
  split_ifs
  · rfl
  · unfold deliverToWaiter
    simp only
    split_ifs
    · exact htake
    · split
      · exact htake
      · exact htake
  · rfl
  · simp [hne]
  · simp [hne]

theorem ipcSendBlock_cases {pid handle j : ℕ} {data : List UInt8}
    (hj : k.ipc.resolve k.objects.caps pid handle rightSend = some j)
    (hdata : ¬(data.length = 0 ∨ ipcMessageMax < data.length)) :
    ((k.ipcSendBlock pid handle data).1 ≠ .delivered
        ∧ ((k.ipcSendBlock pid handle data).2.ipc.channels j = k.ipc.channels j
          ∨ (k.ipcSendBlock pid handle data).2.ipc.channels j = (k.ipc.channels j).clearWaiter))
      ∨ ((k.ipc.channels j).waiter.active = true
        ∧ (k.ipcSendBlock pid handle data).1 = .delivered
        ∧ (k.ipcSendBlock pid handle data).2.ipc.channels j = (k.ipc.channels j).clearWaiter)
      ∨ ((k.ipc.channels j).waiter.active = false
        ∧ (k.ipc.channels j).count = ipcQueueDepth ∧ (k.ipc.channels j).sender.active = false
        ∧ (k.ipcSendBlock pid handle data).1 ≠ .delivered
        ∧ (k.ipcSendBlock pid handle data).2.ipc.channels j = { k.ipc.channels j with
          sender := { pid := pid, data := data, active := true } })
      ∨ ((k.ipc.channels j).waiter.active = false
        ∧ (k.ipc.channels j).count ≠ ipcQueueDepth
        ∧ (k.ipcSendBlock pid handle data).1 = .delivered
        ∧ (k.ipcSendBlock pid handle data).2.ipc.channels j
          = (k.ipc.channels j).push { sender := pid, data := data }) := by
  have htake : (k.takeWaiter j).ipc.channels j = (k.ipc.channels j).clearWaiter := by
    rw [takeWaiter_ipc]
    simp
  unfold ipcSendBlock ipcSendImpl
  rw [hj]
  simp only
  split_ifs with hwaiter hfull hpark
  · unfold deliverToWaiter
    simp only
    split_ifs
    · exact .inl ⟨by simp, .inr htake⟩
    · split
      · exact .inl ⟨by simp, .inr htake⟩
      · exact .inr (.inl ⟨hwaiter, rfl, htake⟩)
  · exact .inl ⟨by simp, .inl rfl⟩
  · simp only [Bool.not_true, Bool.false_or, Bool.not_eq_true] at hpark
    rw [Bool.not_eq_true] at hwaiter
    exact .inr (.inr (.inl ⟨hwaiter, hfull, hpark, by simp, by simp⟩))
  · rw [Bool.not_eq_true] at hwaiter
    exact .inr (.inr (.inr ⟨hwaiter, hfull, rfl, by simp⟩))

theorem syscallSend_ipc {user : ℕ → UInt8}
    (h : (!k.canRead f.rsi f.rdx || f.rdx == 0 || ipcMessageMax < f.rdx.toNat) = false) :
    (k.syscallSend f user).ipc
      = (k.ipcSendBlock k.current f.rdi.toNat (readUser user f.rsi.toNat f.rdx.toNat)).2.ipc := by
  unfold syscallSend
  rw [h]
  generalize k.ipcSendBlock k.current f.rdi.toNat (readUser user f.rsi.toNat f.rdx.toNat) = r
  obtain ⟨_ | _ | _, k'⟩ := r <;> rfl

section

variable {k : Kernel} {f : Frame} {i : ℕ}

theorem sendTarget_eq_some (h : k.sendTarget f = some i) :
    k.userMode ∧ f.rax.toNat = 16 ∧ k.ipc.resolve k.objects.caps k.current f.rdi.toNat rightSend
      = some i := by
  unfold sendTarget at h
  split_ifs at h with hc
  exact ⟨hc.1, hc.2.1, h⟩

theorem receiveTarget_eq_some (h : k.receiveTarget f = some i) :
    k.userMode ∧ (f.rax.toNat = 17 ∧ k.validBuffer f = true
      ∨ f.rax.toNat = 26 ∧ k.validSelect f = true)
      ∧ k.ipc.resolve k.objects.caps k.current f.rdi.toNat rightReceive = some i := by
  unfold receiveTarget at h
  split_ifs at h with hc
  exact ⟨hc.1, hc.2, h⟩

theorem Turn.idle {user : ℕ → UInt8} {dev : Devices} {c : IpcChannel}
    (hsend : k.sendTarget f = some i → ¬k.sendSucceeds f user) (htakes : ¬k.Takes f i)
    (h : k.Turn (.syscall f user dev) i c [] []) :
    k.Turn (.syscall f user dev) i c (k.accepted i (.syscall f user dev))
      (k.handed i (.syscall f user dev)) := by
  have hsend' : ¬(k.sendTarget f = some i ∧ k.sendSucceeds f user) := fun h => hsend h.1 h.2
  have hpass : ¬(k.sendTarget f = some i ∧ k.sendSucceeds f user
      ∧ (k.ipc.channels i).waiter.active = true) := fun h => hsend h.1 h.2.1
  simp only [accepted, handed, hsend', hpass, htakes, false_and, if_false]
  exact h

end

theorem send_turn (user : ℕ → UInt8) (dev : Devices) (hu : k.userMode)
    (h16 : f.rax.toNat = 16) (i : ℕ) :
    k.Turn (.syscall f user dev) i ((k.step (.syscall f user dev)).ipc.channels i)
      (k.accepted i (.syscall f user dev)) (k.handed i (.syscall f user dev)) := by
  have htakes : ¬k.Takes f i := by
    rintro ⟨h, -⟩
    obtain ⟨-, h17 | h26, -⟩ := receiveTarget_eq_some h
    · omega
    · omega
  rw [step_send user dev hu h16]
  cases hcheck : !k.canRead f.rsi f.rdx || f.rdx == 0 || ipcMessageMax < f.rdx.toNat with
  | true =>
    have hipc : ((k.enter f).syscallSend f user).ipc = k.ipc := by
      unfold syscallSend
      rw [show (!(k.enter f).canRead f.rsi f.rdx || f.rdx == 0 || ipcMessageMax < f.rdx.toNat)
        = true from hcheck]
      rfl
    have htarget : k.sendTarget f = none := by
      simp [sendTarget, hcheck]
    refine Turn.idle (fun h => ?_) htakes ?_
    · rw [htarget] at h
      cases h
    · rw [hipc]
      exact .keeps (.refl _) fun _ h => ⟨h, rfl⟩
  | false =>
    rw [syscallSend_ipc (k := k.enter f) hcheck]
    have htarget : k.sendTarget f
        = k.ipc.resolve k.objects.caps k.current f.rdi.toNat rightSend := by
      unfold sendTarget
      rw [if_pos ⟨hu, h16, hcheck⟩]
    cases hj : k.ipc.resolve k.objects.caps k.current f.rdi.toNat rightSend with
    | none =>
      have hsend : ((k.enter f).ipcSendBlock (k.enter f).current f.rdi.toNat
          (readUser user f.rsi.toNat f.rdx.toNat)).2.ipc = k.ipc := by
        unfold ipcSendBlock ipcSendImpl
        rw [show (k.enter f).ipc.resolve (k.enter f).objects.caps (k.enter f).current f.rdi.toNat
          rightSend = none from hj]
        rfl
      refine Turn.idle (fun h => ?_) htakes ?_
      · rw [htarget, hj] at h
        cases h
      · rw [hsend]
        exact .keeps (.refl _) fun _ h => ⟨h, rfl⟩
    | some j =>
      have hj' : (k.enter f).ipc.resolve (k.enter f).objects.caps (k.enter f).current f.rdi.toNat
        rightSend = some j := hj
      rcases eq_or_ne i j with rfl | hne
      swap
      · refine Turn.idle (fun h => ?_) htakes ?_
        · rw [htarget, hj] at h
          exact absurd (Option.some.inj h).symm hne
        · rw [ipcSendBlock_others hj' hne]
          exact .keeps (.refl _) fun _ h => ⟨h, rfl⟩
      have hlive := resolve_active hj
      simp only [Bool.or_eq_false_iff, decide_eq_false_iff_not] at hcheck
      have hlength : (readUser user f.rsi.toNat f.rdx.toNat).length = f.rdx.toNat := by
        simp [readUser]
      have hne : f.rdx ≠ 0 := by simpa using hcheck.1.2
      have hdata : ¬((readUser user f.rsi.toNat f.rdx.toNat).length = 0
          ∨ ipcMessageMax < (readUser user f.rsi.toNat f.rdx.toNat).length) := by
        rw [hlength]
        rintro (h | h)
        · exact hne (UInt64.toNat_inj.1 h)
        · exact hcheck.2 h
      have hfits : (readUser user f.rsi.toNat f.rdx.toNat).length ≤ ipcMessageMax := by
        rw [not_or, not_lt] at hdata
        exact hdata.2
      have hcases := ipcSendBlock_cases hj' hdata
      have hsucceeds : k.sendSucceeds f user ↔ ((k.enter f).ipcSendBlock (k.enter f).current
        f.rdi.toNat (readUser user f.rsi.toNat f.rdx.toNat)).1 = .delivered := Iff.rfl
      rcases hcases with ⟨hr, heq⟩ | ⟨hw, hr, heq⟩ | ⟨hw, hfull, hs, hr, heq⟩ |
        ⟨hw, hroom, hr, heq⟩
      · refine Turn.idle (fun _ h => hr (hsucceeds.1 h)) htakes ?_
        rcases heq with heq | heq
        · rw [heq]
          exact .keeps (.refl _) fun _ h => ⟨h, rfl⟩
        · rw [heq]
          exact .keeps (IpcChannel.clearWaiter_calms _) fun _ h => ⟨h, rfl⟩
      · rw [heq]
        simp only [accepted, handed, htarget, hj, hsucceeds, hr, true_and, if_true]
        rw [if_pos (show (k.ipc.channels i).waiter.active = true from hw)]
        have hsends : k.SendsTo i (.syscall f user dev) := htarget.trans hj
        exact .passes hlive hsends hw _
      · rw [heq]
        exact Turn.idle (fun _ h => hr (hsucceeds.1 h)) htakes
          (.parks hu.2 hlive hw hfull hs _ hfits)
      · rw [heq]
        simp only [accepted, handed, htarget, hj, hsucceeds, hr, true_and, if_true, htakes,
          false_and, if_false]
        rw [if_neg (show ¬(k.ipc.channels i).waiter.active = true from by
          rw [show (k.ipc.channels i).waiter.active = false from hw]; simp)]
        exact .accepts hlive hw hroom _ hfits

/-! ## Receives and selects -/

theorem drainSlot_channel (k : Kernel) (i : ℕ) :
    (k.drainSlot i).ipc.channels i = if (k.ipc.channels i).sender.active = true then
      (k.ipc.channels i).pop.clearSender.push (k.ipc.channels i).staged
      else (k.ipc.channels i).pop := by
  unfold drainSlot
  simp only
  split_ifs
  · simp [wakeIfBlocked, IpcChannel.staged]
  · simp

theorem drainSlot_others (k : Kernel) {i j : ℕ} (hne : i ≠ j) :
    (k.drainSlot j).ipc.channels i = k.ipc.channels i := by
  unfold drainSlot
  simp only
  split_ifs
  · simp [wakeIfBlocked, hne]
  · simp [hne]

theorem userWriteRange_mono {m : UserMemory} {pid address n length : ℕ}
    (h : m.userWriteRange pid address n = true) (hle : length ≤ n) :
    m.userWriteRange pid address length = true := by
  unfold UserMemory.userWriteRange UserMemory.anonymousRange UserMemory.pagesRange at *
  simp only [Bool.or_eq_true, Bool.and_eq_true, decide_eq_true_eq] at h ⊢
  refine h.imp (Or.imp (Or.imp ?_ ?_) ?_) ?_
  · exact fun h => ⟨h.1, hle.trans h.2⟩
  · exact fun h => ⟨h.1, hle.trans h.2⟩
  · exact fun h => ⟨h.1, h.2.1, hle.trans h.2.2⟩
  · exact fun h => ⟨h.1, h.2.1, hle.trans h.2.2⟩

section

variable {k : Kernel} {f : Frame} {i : ℕ} (hk : ProcInv k)

include hk

theorem resolve_used {handle : ℕ} {right : BitVec 32}
    (h : k.ipc.resolve k.objects.caps k.current handle right = some i) :
    UserMemory.validPid k.current ∧ k.mem.processMemoryUsed k.current = true := by
  unfold Ipc.resolve at h
  split at h
  · cases h
  · rename_i v hv
    obtain ⟨slot, -, -, hopen, -⟩ := Capabilities.capabilityResolveObject_eq_some.1 hv
    obtain ⟨hvalid, -, hused⟩ := hk.held k.current slot hopen
    exact ⟨hvalid, hused⟩

theorem receiveTarget_copies {length : ℕ} (h : k.receiveTarget f = some i)
    (hlength : length ≤ (receiveBuffer f).2) :
    k.userspaceCopyTo k.current (receiveBuffer f).1 length = true := by
  obtain ⟨-, hcheck, hi⟩ := receiveTarget_eq_some h
  obtain ⟨hvalid, hused⟩ := resolve_used hk hi
  have hrange : k.mem.userWriteRange k.current (receiveBuffer f).1 (receiveBuffer f).2 = true := by
    unfold receiveBuffer
    rcases hcheck with ⟨h17, hbuffer⟩ | ⟨h26, hselect⟩
    · simp only [validBuffer, canWrite, Bool.and_eq_true] at hbuffer
      rw [if_pos h17]
      exact hbuffer.1.1
    · simp only [validSelect, canWrite, Bool.and_eq_true] at hselect
      rw [if_neg (by omega)]
      exact hselect.1.2
  unfold userspaceCopyTo
  simp only [hused, decide_eq_true hvalid, Bool.and_self, Bool.true_and]
  exact userWriteRange_mono hrange hlength

theorem receive_takes (user : ℕ → UInt8) (dev : Devices) {m : IpcMessage} {k₁ : Kernel}
    (hu : k.userMode) (hcheck : f.rax.toNat = 17 ∧ k.validBuffer f = true
      ∨ f.rax.toNat = 26 ∧ k.validSelect f = true)
    (hr : (k.enter f).ipcReceive k.current f.rdi.toNat (receiveBuffer f).2 = some (m, k₁)) :
    k.Turn (.syscall f user dev) i (k₁.ipc.channels i) (k.accepted i (.syscall f user dev))
      (k.handed i (.syscall f user dev)) := by
  have hsend : k.sendTarget f ≠ some i := by
    intro h
    obtain ⟨-, h16, -⟩ := sendTarget_eq_some h
    omega
  obtain ⟨j, hj, hcount, rfl, hlength, rfl⟩ := ipcReceive_eq hr
  have htarget : k.receiveTarget f = some j := by
    unfold receiveTarget
    rw [if_pos ⟨hu, hcheck⟩]
    exact hj
  rcases eq_or_ne i j with rfl | hne
  swap
  · refine Turn.idle (fun h => absurd h hsend) ?_ ?_
    · rintro ⟨h, -⟩
      rw [htarget] at h
      exact hne (Option.some.inj h).symm
    · rw [drainSlot_others _ hne]
      exact .keeps (.refl _) fun _ h => ⟨h, rfl⟩
  have htakes : k.Takes f i := ⟨htarget, by rw [hr]; rfl⟩
  have hcopy := receiveTarget_copies hk htarget hlength
  have hlive := resolve_active hj
  rw [drainSlot_channel, show (k.enter f).ipc = k.ipc from rfl]
  simp only [accepted, handed, hsend, htakes, false_and, true_and, if_false]
  rw [if_pos (show k.userspaceCopyTo k.current (receiveBuffer f).1
    (k.ipc.channels i).head.data.length = true from hcopy)]
  split_ifs with hparked
  · exact .refills hlive hcount hparked
  · rw [Bool.not_eq_true] at hparked
    exact .takes hlive hcount hparked

end

theorem receive_waits {i : ℕ} (user : ℕ → UInt8) (dev : Devices)
    {c : IpcChannel} (hnumber : f.rax.toNat ≠ 16)
    (hr : (k.enter f).ipcReceive k.current f.rdi.toNat (receiveBuffer f).2 = none)
    (h : k.Turn (.syscall f user dev) i c [] []) :
    k.Turn (.syscall f user dev) i c (k.accepted i (.syscall f user dev))
      (k.handed i (.syscall f user dev)) := by
  refine Turn.idle (fun hsend => ?_) (fun htakes => ?_) h
  · exact absurd (sendTarget_eq_some hsend).2.1 hnumber
  · have := htakes.2
    rw [hr] at this
    cases this

theorem ipcReceive_none {pid handle capacity i : ℕ}
    (h : k.ipcReceive pid handle capacity = none)
    (hi : k.ipc.resolve k.objects.caps pid handle rightReceive = some i)
    (hcount : (k.ipc.channels i).count ≠ 0) :
    capacity < (k.ipc.channels i).head.data.length := by
  unfold ipcReceive at h
  rw [hi] at h
  simp only at h
  split_ifs at h with hc
  exact hc.resolve_left hcount

theorem receive_turn (hk : ProcInv k) (user : ℕ → UInt8) (dev : Devices)
    (hu : k.userMode) (h17 : f.rax.toNat = 17) (i : ℕ) :
    k.Turn (.syscall f user dev) i ((k.step (.syscall f user dev)).ipc.channels i)
      (k.accepted i (.syscall f user dev)) (k.handed i (.syscall f user dev)) := by
  have hbuffer : (receiveBuffer f).2 = f.rdx.toNat := by simp [receiveBuffer, h17]
  rw [step_receive user dev hu h17]
  unfold syscallReceive
  split
  · rename_i hcheck
    refine Turn.idle (fun h => ?_) (fun h => ?_) (.keeps (.refl _) fun _ h => ⟨h, rfl⟩)
    · obtain ⟨-, h16, -⟩ := sendTarget_eq_some h
      omega
    · obtain ⟨-, ⟨-, hvalid⟩ | ⟨h26, -⟩, -⟩ := receiveTarget_eq_some h.1
      · rw [show (k.enter f).validBuffer f = true from hvalid] at hcheck
        cases hcheck
      · omega
  · rename_i hcheck
    have hvalid : k.validBuffer f = true := by
      rw [Bool.not_eq_true, Bool.not_eq_false'] at hcheck
      exact hcheck
    have htarget : k.receiveTarget f
        = k.ipc.resolve k.objects.caps k.current f.rdi.toNat rightReceive := by
      unfold receiveTarget
      rw [if_pos ⟨hu, .inl ⟨h17, hvalid⟩⟩]
    split
    · rename_i m k₁ hr
      rw [← hbuffer] at hr
      have h := receive_takes hk user dev (i := i) hu (.inl ⟨h17, hvalid⟩) hr
      split
      · exact h
      · exact h
    · rename_i hr
      have hr' := hbuffer ▸ hr
      have hidle := receive_waits (c := k.ipc.channels i) user dev (by omega) hr'
        (.keeps (.refl _) fun _ h => ⟨h, rfl⟩)
      split
      · exact hidle
      · rename_i hblocks
        split
        · exact hidle
        · rename_i ipc hwait
          obtain ⟨j, hj, hwaiter, rfl⟩ := registerWait_spec hwait
          rcases eq_or_ne i j with rfl | hne
          swap
          · simpa [hne] using hidle
          refine receive_waits user dev (by omega) hr' ?_
          simp only [withSched_ipc, withIpc_ipc, Ipc.setChannel_channels, Function.update_self]
          refine Turn.waits (k := k) (resolve_active hj) _ fun hcount => .inl ?_
          exact ⟨h17, not_not.1 hblocks, htarget.trans hj, hcount,
            ipcReceive_none (k := k.enter f) hr hj hcount⟩

theorem ipcCancelWait_sender (ipc : Ipc) (pid i : ℕ) (h : (ipc.channels i).active = true) :
    ((ipc.ipcCancelWait pid).channels i).active = true
      ∧ ((ipc.ipcCancelWait pid).channels i).sender = (ipc.channels i).sender := by
  unfold Ipc.ipcCancelWait
  split
  · exact ⟨h, rfl⟩
  · rename_i j _
    rcases eq_or_ne i j with rfl | hne
    · simpa [IpcChannel.clearWaiter] using h
    · simpa [hne] using h

theorem idleWaiter_calms (c : IpcChannel) (w : IpcWaiter) (hw : w.active = false) :
    c.Calms { c with waiter := w } :=
  fun h => ⟨h, rfl, rfl, rfl, rfl, rfl, rfl, (fun h => by simp [hw] at h), fun _ => rfl⟩

theorem select_turn (hk : Calm k) (user : ℕ → UInt8) (dev : Devices)
    (hu : k.userMode) (h26 : f.rax.toNat = 26) (i : ℕ) :
    k.Turn (.syscall f user dev) i ((k.step (.syscall f user dev)).ipc.channels i)
      (k.accepted i (.syscall f user dev)) (k.handed i (.syscall f user dev)) := by
  have hbuffer : (receiveBuffer f).2 = ipcMessageMax := by simp [receiveBuffer, h26]
  rw [step_select user dev hu h26]
  unfold syscallSelect
  split
  · rename_i hcheck
    refine Turn.idle (fun h => ?_) (fun h => ?_) (.keeps (.refl _) fun _ h => ⟨h, rfl⟩)
    · obtain ⟨-, h16, -⟩ := sendTarget_eq_some h
      omega
    · obtain ⟨-, ⟨h17, -⟩ | ⟨-, hvalid⟩, -⟩ := receiveTarget_eq_some h.1
      · omega
      · rw [show (k.enter f).validSelect f = true from hvalid] at hcheck
        cases hcheck
  rename_i hcheck
  have hvalid : k.validSelect f = true := by
    rw [Bool.not_eq_true, Bool.not_eq_false'] at hcheck
    exact hcheck
  split
  · rename_i m k₁ hr
    rw [← hbuffer] at hr
    have h := receive_takes hk.procs user dev (i := i) hu (.inr ⟨h26, hvalid⟩) hr
    exact h
  rename_i hr
  have hr' := hbuffer ▸ hr
  have hkeeps : ∀ {c}, (k.ipc.channels i).Calms c → ((k.ipc.channels i).active = true →
      c.active = true ∧ c.sender = (k.ipc.channels i).sender) → k.Turn (.syscall f user dev) i c
      (k.accepted i (.syscall f user dev)) (k.handed i (.syscall f user dev)) :=
    fun h hstays => receive_waits user dev (by omega) hr' (.keeps h fun _ => hstays)
  split
  · exact hkeeps (.refl _) fun h => ⟨h, rfl⟩
  split
  · refine hkeeps (ipcCancelWait_quiet (k.enter f) _ i) fun h => ?_
    exact ipcCancelWait_sender k.ipc k.current i h
  · rename_i ipc hwait
    obtain ⟨j, hj, hwaiter, rfl⟩ := registerWait_spec hwait
    split
    · let w : IpcWaiter := ⟨(k.enter f).current, f.rdx.toNat, ipcMessageMax, true, true⟩
      have hcancel := registered_cancel (w := w) (hk.rests.enter f)
        ((enter_same k f).wakes.inv hk.procs.sched) hu.2 (resolve_active hj) hwaiter rfl rfl
      rw [hcancel]
      refine hkeeps (setChannel_quiet (k := k.enter f) (i := j) (idleWaiter_calms _ _ rfl) i)
        fun h => ?_
      rcases eq_or_ne i j with rfl | hne
      · simpa using h
      · simpa [hne] using h
    · rcases eq_or_ne i j with rfl | hne
      swap
      · simp only [withSched_ipc, withInput_ipc, withIpc_ipc, Ipc.setChannel_channels,
          Function.update_of_ne hne]
        exact hkeeps (.refl _) fun h => ⟨h, rfl⟩
      refine receive_waits user dev (by omega) hr' ?_
      simp only [withSched_ipc, withInput_ipc, withIpc_ipc, Ipc.setChannel_channels,
        Function.update_self]
      refine Turn.waits (k := k) (resolve_active hj) _ fun hcount => .inr ?_
      exact ipcReceive_none (k := k.enter f) hr hj hcount

/-! ## Every event -/

theorem ipcCreate_turn (user : ℕ → UInt8) (dev : Devices)
    (hu : k.userMode) (h14 : f.rax.toNat = 14) (i : ℕ) :
    k.Turn (.syscall f user dev) i ((k.step (.syscall f user dev)).ipc.channels i)
      (k.accepted i (.syscall f user dev)) (k.handed i (.syscall f user dev)) := by
  have hidle : ∀ {c}, k.Turn (.syscall f user dev) i c [] [] → k.Turn (.syscall f user dev) i c
      (k.accepted i (.syscall f user dev)) (k.handed i (.syscall f user dev)) := by
    refine fun h => Turn.idle (fun hsend => ?_) (fun htakes => ?_) h
    · obtain ⟨-, h16, -⟩ := sendTarget_eq_some hsend
      omega
    · obtain ⟨-, ⟨h17, -⟩ | ⟨h26, -⟩, -⟩ := receiveTarget_eq_some htakes.1
      · omega
      · omega
  rw [step_ipcCreate user dev hu h14]
  unfold syscallIpcCreate
  split
  · exact hidle (.keeps (.refl _) fun _ h => ⟨h, rfl⟩)
  simp only
  rcases ipcCreate_cases k.ipc k.objects.caps k.current
    (readUser user f.rdi.toNat f.rsi.toNat) with heq | ⟨j, live, -, hdead, heq⟩
  · refine hidle ?_
    rw [show ((k.enter f).ipc.ipcCreate (k.enter f).objects.caps (k.enter f).current
      (readUser user f.rdi.toNat f.rsi.toNat)).2.1 = k.ipc from heq]
    exact .keeps (.refl _) fun _ h => ⟨h, rfl⟩
  · refine hidle ?_
    simp only [ret_ipc, withObjects_ipc, withIpc_ipc]
    rw [show ((k.enter f).ipc.ipcCreate (k.enter f).objects.caps (k.enter f).current
      (readUser user f.rdi.toNat f.rsi.toNat)).2.1 = _ from heq]
    rcases eq_or_ne i j with rfl | hne
    swap
    · simp only [Ipc.setChannel_channels, Function.update_of_ne hne]
      exact .keeps (.refl _) fun _ h => ⟨h, rfl⟩
    simp only [Ipc.setChannel_channels, Function.update_self]
    cases live with
    | true => exact .opens hu.2 hdead _
    | false => exact .keeps (fun h => by cases h) fun _ h => absurd (hdead.symm.trans h) (by simp)

theorem step_turn (hk : Calm k) (e : Event) (i : ℕ) :
    k.Turn e i ((k.step e).ipc.channels i) (k.accepted i e) (k.handed i e) := by
  by_cases hcall : k.messageCall e
  · cases e with
    | syscall f user dev =>
      obtain ⟨hu, h14 | h16 | h17 | h26⟩ := hcall
      · exact ipcCreate_turn user dev hu h14 i
      · exact send_turn user dev hu h16 i
      · exact receive_turn hk.procs user dev hu h17 i
      · exact select_turn hk user dev hu h26 i
    | _ => cases hcall
  · have hquiet := step_quiet hcall i
    cases e with
    | syscall f user dev =>
      refine Turn.idle (fun hsend => ?_) (fun htakes => ?_)
        (.keeps hquiet fun h => absurd h hcall)
      · obtain ⟨hu, h16, -⟩ := sendTarget_eq_some hsend
        exact absurd ⟨hu, .inr (.inl h16)⟩ hcall
      · obtain ⟨hu, ⟨h17, -⟩ | ⟨h26, -⟩, -⟩ := receiveTarget_eq_some htakes.1
        · exact absurd ⟨hu, .inr (.inr (.inl h17))⟩ hcall
        · exact absurd ⟨hu, .inr (.inr (.inr h26))⟩ hcall
    | timerTick registers => exact .keeps hquiet fun h => absurd h hcall
    | input event => exact .keeps hquiet fun h => absurd h hcall
    | kernel call => exact .keeps hquiet fun h => absurd h hcall

end Kernel

end DemonOS
