import DemonOS.Proofs.DemonX.ClientMessages

/-!
# The queue of events

An event is in the channel, pending or put back before it is returned, and the calls of Xlib only
move it along: over every run of them the events come in the order in which they were sent
(`events_in_order`).
-/

namespace DemonOS

namespace DemonX

inductive EventCall
  | pending
  | next
  | checkTyped (type : ℤ)
  | checkMask (mask : UInt64)
  | checkTypedWindow (window : UInt32) (type : ℤ)
  | checkWindow (window : UInt32) (mask : UInt64)
  | mask (mask : UInt64)
  | window (window : UInt32) (mask : UInt64)

namespace Desktop

/-- The event that a call returns, if any, and what follows. One that would wait changes nothing. -/
def eventCall (client : UInt32) (d : Desktop) : EventCall → Option XEvent × Desktop
  | .pending => (none, (d.xPending client).2)
  | .next => ((d.xNextEvent client).map fun r => (some r.1, r.2)).getD (none, d)
  | .checkTyped type => d.xCheckTypedEvent client type
  | .checkMask mask => d.xCheckMaskEvent client mask
  | .checkTypedWindow window type => d.xCheckTypedWindowEvent client window type
  | .checkWindow window mask => d.xCheckWindowEvent client window mask
  | .mask mask => (d.xMaskEvent client mask).getD (none, d)
  | .window window mask => (d.xWindowEvent client window mask).getD (none, d)

/-- The events that are off the channel and have not been given out. -/
def kept (client : UInt32) (d : Desktop) : List XEvent :=
  (d.display client).putback.toList
    ++ ((d.display client).pending.map fun p => decodeEvent p.payload).toList

def Shows (p : Packet) (e : XEvent) : Prop :=
  ∃ packet, Carries packet p p.payloadLength.toNat ∧ e = decodeEvent packet.payload

def isEvent (p : Packet) : Bool := p.flags == flagEvent

/-- Of the events that came, `events` are off the channel and the others wait in it. -/
def Off (arrived : List Packet) (events : List XEvent) (replies : List Packet) : Prop :=
  ∃ taken waiting : List Packet, arrived.filter isEvent = taken ++ waiting.filter isEvent
    ∧ List.Forall₂ Shows taken events ∧ replies = waiting.map (Packet.record · 0)
    ∧ ∀ p ∈ waiting, p.Short

/-- The events that came are those given out, those kept and those that wait, in this order. -/
structure Conserves (client : UInt32) (arrived : List Packet) (given : List XEvent) (d : Desktop) :
    Prop where
  off : Off arrived (given ++ d.kept client) (d.replies client)
  pending : ∀ p ∈ (d.display client).pending, p.flags = flagEvent

variable {client : UInt32} {d d' : Desktop} {e : XEvent} {arrived : List Packet}
  {events given : List XEvent}

theorem Off.receive (h : Off arrived events (d.replies client))
    (hreceive : d.receive client = some d') :
    (d'.display client).putback = (d.display client).putback
      ∧ (d'.display client).pending = (d.display client).pending
      ∧ if (d'.display client).packet.flags = flagEvent then
          Off arrived (events ++ [decodeEvent (d'.display client).packet.payload])
            (d'.replies client)
        else Off arrived events (d'.replies client) := by
  obtain ⟨taken, _ | ⟨p, rest⟩, hall, hshown, hreplies, hshort⟩ := h
  · rw [Desktop.receive, hreplies] at hreceive
    cases hreceive
  obtain ⟨packet, hpacket, hcarries⟩ := receive_record (hshort p (by simp)) hreplies
  rw [hpacket] at hreceive
  cases hreceive
  have hrest : ∀ q ∈ rest, q.Short := fun q hq => hshort q (by simp [hq])
  simp only [setDisplay, Function.update_self, hcarries.flags, true_and]
  split_ifs with hflags
  · exact ⟨taken ++ [p], rest, by simp [hall, isEvent, hflags],
      List.rel_append hshown (.cons ⟨packet, hcarries, rfl⟩ .nil), rfl, hrest⟩
  · exact ⟨taken, rest, by simp [hall, isEvent, hflags], hshown, rfl, hrest⟩

theorem Off.nextEvent : ∀ (turns : ℕ) {d : Desktop}, Off arrived events (d.replies client) →
    nextEvent client turns d = some (e, d') →
      (d'.display client).putback = (d.display client).putback
        ∧ (d'.display client).pending = (d.display client).pending
        ∧ Off arrived (events ++ [e]) (d'.replies client)
  | turns + 1, d, h, hnext => by
    rw [Desktop.nextEvent] at hnext
    split at hnext
    · cases hnext
    · rename_i d₁ hreceive
      obtain ⟨hback, hpend, hrest⟩ := h.receive hreceive
      split_ifs at hnext hrest with hflags
      · cases hnext
        exact ⟨hback, hpend, hrest⟩
      · obtain ⟨hback', hpend', hoff⟩ := Off.nextEvent turns hrest hnext
        exact ⟨hback'.trans hback, hpend'.trans hpend, hoff⟩

theorem xNextEvent_conserves (h : d.Conserves client arrived given)
    (hnext : d.xNextEvent client = some (e, d')) :
    d'.Conserves client arrived (given ++ [e]) ∧ (d'.display client).putback = none := by
  obtain ⟨hoff, hflags⟩ := h
  rw [xNextEvent] at hnext
  split at hnext
  · rename_i hback
    cases hnext
    exact ⟨⟨by simpa [setDisplay, kept, hback] using hoff, by simpa [setDisplay] using hflags⟩,
      by simp [setDisplay]⟩
  · rename_i p hback hpend
    simp only [if_pos (hflags p hpend)] at hnext
    cases hnext
    exact ⟨⟨by simpa [setDisplay, kept, hback, hpend] using hoff, by simp [setDisplay]⟩,
      by simp [setDisplay, hback]⟩
  · rename_i hback hpend
    rw [kept, hback, hpend] at hoff
    obtain ⟨hback', hpend', hoff⟩ := hoff.nextEvent _ hnext
    rw [hback] at hback'
    rw [hpend] at hpend'
    exact ⟨⟨by simpa [kept, hback', hpend'] using hoff, by simp [hpend']⟩, hback'⟩

theorem xPending_conserves (h : d.Conserves client arrived given) :
    (d.xPending client).2.Conserves client arrived given := by
  unfold xPending
  split_ifs with hheld
  · exact h
  split
  · exact h
  · rename_i d₁ hreceive
    simp only [not_or, Option.not_isSome_iff_eq_none] at hheld
    obtain ⟨hback, hpend⟩ := hheld
    obtain ⟨hback₁, hpend₁, hrest⟩ := h.off.receive hreceive
    rw [hback] at hback₁
    rw [hpend] at hpend₁
    split_ifs at hrest ⊢ with hflags
    · exact ⟨by simpa [setDisplay, kept, hback₁, hback, hpend] using hrest,
        by simp [setDisplay, hflags]⟩
    · exact ⟨by simpa [kept, hback, hpend, hback₁, hpend₁] using hrest, by simp [hpend₁]⟩

/-- What a call leaves: an event that it returns is the next one given out. -/
def Leaves (client : UInt32) (arrived : List Packet) (given : List XEvent)
    (r : Option XEvent × Desktop) : Prop :=
  r.2.Conserves client arrived (given ++ r.1.toList)
    ∧ (r.1.isSome → (r.2.display client).putback = none)

theorem checkEvent_leaves (h : d.Conserves client arrived given) (wanted : UInt8 → Bool) :
    Leaves client arrived given (d.checkEvent client wanted) := by
  have hpending := xPending_conserves h
  unfold checkEvent
  dsimp only
  generalize d.xPending client = r at hpending
  split_ifs
  · rcases hnext : r.2.xNextEvent client with _ | ⟨e, d'⟩
    · exact ⟨by simpa using hpending, by simp⟩
    · obtain ⟨hd', hback⟩ := xNextEvent_conserves hpending hnext
      exact ⟨hd', fun _ => hback⟩
  · exact ⟨by simpa using hpending, by simp⟩

theorem keepEvent_conserves {r : Option XEvent × Desktop} (h : Leaves client arrived given r)
    (wanted : XEvent → Bool) : (keepEvent client wanted r).2.Conserves client arrived
      (given ++ (keepEvent client wanted r).1.toList) := by
  obtain ⟨_ | e, d⟩ := r
  · exact h.1
  · obtain ⟨hd, hback⟩ := h
    have hback : (d.display client).putback = none := hback rfl
    dsimp only [keepEvent]
    split_ifs
    · exact hd
    · rw [xPutBackEvent, if_neg (by simp [hback])]
      exact ⟨by simpa [setDisplay, kept, hback] using hd.off,
        by simpa [setDisplay] using hd.pending⟩

theorem eventCall_conserves (h : d.Conserves client arrived given) (call : EventCall) :
    (d.eventCall client call).2.Conserves client arrived
      (given ++ (d.eventCall client call).1.toList) := by
  cases call with
  | pending => simpa [eventCall] using xPending_conserves h
  | checkTyped | checkMask => exact (checkEvent_leaves h _).1
  | checkTypedWindow | checkWindow => exact keepEvent_conserves (checkEvent_leaves h _) _
  | next | mask | window =>
    unfold eventCall
    dsimp only [xMaskEvent, xWindowEvent]
    rcases hr : d.xNextEvent client with _ | ⟨e, d'⟩
    · simpa using h
    · obtain ⟨hd, hback⟩ := xNextEvent_conserves h hr
      simp only [Option.map_some, Option.getD_some]
      first
      | exact hd
      | exact keepEvent_conserves (r := (some e, d')) ⟨hd, fun _ => hback⟩ _

/-- A packet comes, or a call is made; what has come and what was returned goes along. -/
def eventStep (client : UInt32) (t : Desktop × List Packet × List XEvent) :
    {p : Packet // p.Short} ⊕ EventCall → Desktop × List Packet × List XEvent
  | .inl p => ({ t.1 with
      replies := Function.update t.1.replies client (t.1.replies client ++ [p.val.record 0]) },
    t.2.1 ++ [p.val], t.2.2)
  | .inr call => let r := t.1.eventCall client call; (r.2, t.2.1, t.2.2 ++ r.1.toList)

/-- However the calls are mixed and whatever comes between them, no event is lost, returned twice or
out of turn. -/
theorem events_in_order (client : UInt32) (d : Desktop)
    (happenings : List ({p : Packet // p.Short} ⊕ EventCall)) :
    let t := Machine.run (eventStep client) ({ d.setDisplay client {} with
      replies := Function.update d.replies client [] }, [], []) happenings
    t.1.Conserves client t.2.1 t.2.2 := by
  refine Machine.run_inv (I := fun t => t.1.Conserves client t.2.1 t.2.2) (eventStep client)
    (fun t happening h => ?_) happenings _
    ⟨⟨[], [], rfl, by simp [setDisplay, kept]⟩, by simp [setDisplay]⟩
  rcases happening with ⟨p, hp⟩ | call
  · obtain ⟨⟨taken, waiting, hall, hshown, hreplies, hshort⟩, hpending⟩ := h
    refine ⟨⟨taken, waiting ++ [p], ?_, hshown, ?_, ?_⟩, hpending⟩
    · simp [eventStep, hall, List.filter_append]
    · simp [eventStep, hreplies]
    · simpa [or_imp, forall_and, hp] using hshort
  · exact eventCall_conserves h call

end Desktop

end DemonX

end DemonOS
