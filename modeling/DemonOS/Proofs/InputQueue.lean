import DemonOS.Input
import DemonOS.Lib.Queues
import DemonOS.Lib.Machine

/-!
# The input queue as a queue that merges

Calls of `input_publish` and `input_poll` while no process waits, with the events that were accepted
and the events that were polled. The ring holds the last event of each waiting batch of a queue that
merges mouse moves (`call_agrees`), so along every run the polled events are the last ones of the
batches taken (`run_agrees`).
-/

namespace DemonOS

namespace Input

open Batches

inductive InputCall where
  | publish (event : InputEvent)
  | poll

/-- The queue after some calls, the events dropped, and what went in and came out. -/
structure Trace where
  input : Input := {}
  dropped : UInt64 := 0
  accepted : List InputEvent := []
  polled : List InputEvent := []

namespace Trace

def publish (s : Trace) (event : InputEvent) : Trace where
  input := (s.input.publish s.dropped event).2.1
  dropped := (s.input.publish s.dropped event).2.2
  accepted := if (s.input.publish s.dropped event).1 then s.accepted ++ [event] else s.accepted
  polled := s.polled

def poll (s : Trace) : Trace :=
  match s.input.inputPoll with
  | none => s
  | some (event, input) => { s with input := input, polled := s.polled ++ [event] }

def call (s : Trace) : InputCall → Trace
  | .publish event => s.publish event
  | .poll => s.poll

end Trace

/-! ## The queue that merges -/

def isMove (event : InputEvent) : Bool := event.type == inputMouseMove

def isValid (event : InputEvent) : Bool := inputKeyDown ≤ event.type && event.type ≤ inputMouseScroll

structure Spool where
  taken : List (Batch InputEvent) := []
  waiting : List (Batch InputEvent) := []

namespace Spool

def publish (q : Spool) (event : InputEvent) : Spool :=
  if isValid event then
    { q with waiting := (put isMove (inputQueueCapacity - 1) q.waiting event).getD q.waiting }
  else q

def poll (q : Spool) : Spool :=
  match q.waiting with
  | [] => q
  | b :: rest => { taken := q.taken ++ [b], waiting := rest }

def call (q : Spool) : InputCall → Spool
  | .publish event => q.publish event
  | .poll => q.poll

structure Merged (q : Spool) : Prop where
  kind : ∀ b ∈ q.taken, b.merged = [] ∨ ∀ event ∈ b.all, isMove event = true
  tidy : Tidy isMove q.waiting

end Spool

/-! ## The ring -/

def pendingEvents (input : Input) : List InputEvent :=
  Ring.contents inputQueueCapacity input.queue input.readIndex input.inputPending

/-- The indices are slots of the ring. -/
structure Indexed (input : Input) : Prop where
  read : input.readIndex < inputQueueCapacity
  write : input.writeIndex < inputQueueCapacity

section

variable {input input' : Input} {event : InputEvent}

theorem inputPending_eq (h : input.Indexed) :
    input.inputPending < inputQueueCapacity
      ∧ input.writeIndex = (input.readIndex + input.inputPending) % inputQueueCapacity := by
  obtain ⟨hread, hwrite⟩ := h
  unfold inputPending
  simp only [inputQueueCapacity] at *
  split_ifs <;> omega

theorem inputPending_of_write {count : ℕ} (hread : input.readIndex < inputQueueCapacity)
    (hcount : count < inputQueueCapacity)
    (hwrite : input.writeIndex = (input.readIndex + count) % inputQueueCapacity) :
    input.inputPending = count := by
  unfold inputPending
  simp only [inputQueueCapacity] at *
  split_ifs <;> omega

theorem length_pendingEvents : input.pendingEvents.length = input.inputPending :=
  Ring.length_contents

theorem inputPending_eq_zero (h : input.Indexed) :
    input.inputPending = 0 ↔ input.readIndex = input.writeIndex := by
  obtain ⟨hread, hwrite⟩ := h
  unfold inputPending
  simp only [inputQueueCapacity] at *
  split_ifs <;> omega

theorem previous_eq (h : input.Indexed) (hne : input.readIndex ≠ input.writeIndex) :
    (input.writeIndex + inputQueueCapacity - 1) % inputQueueCapacity
      = (input.readIndex + (input.inputPending - 1)) % inputQueueCapacity := by
  have hpending := (inputPending_eq_zero h).not.2 hne
  obtain ⟨hlt, hwrite⟩ := inputPending_eq h
  have hread := h.read
  simp only [inputQueueCapacity] at *
  omega

theorem full_iff (h : input.Indexed) :
    (input.writeIndex + 1) % inputQueueCapacity = input.readIndex
      ↔ input.inputPending = inputQueueCapacity - 1 := by
  obtain ⟨hlt, hwrite⟩ := inputPending_eq h
  have hread := h.read
  simp only [inputQueueCapacity] at *
  omega

theorem pendingEvents_concat (h : input.Indexed) (hne : input.readIndex ≠ input.writeIndex) :
    input.pendingEvents
      = Ring.contents inputQueueCapacity input.queue input.readIndex (input.inputPending - 1)
        ++ [input.queue ((input.writeIndex + inputQueueCapacity - 1) % inputQueueCapacity)] := by
  have hpending := (inputPending_eq_zero h).not.2 hne
  unfold pendingEvents
  rw [previous_eq h hne, ← Ring.contents_succ]
  congr 1
  omega

theorem inputPoll_pendingEvents (h : input.Indexed)
    (hpoll : input.inputPoll = some (event, input')) :
    input'.Indexed ∧ input.pendingEvents = event :: input'.pendingEvents := by
  unfold inputPoll at hpoll
  split_ifs at hpoll with hne
  simp only [Option.some.injEq, Prod.mk.injEq] at hpoll
  obtain ⟨rfl, rfl⟩ := hpoll
  have hpending := (inputPending_eq_zero h).not.2 hne
  obtain ⟨hlt, hwrite⟩ := inputPending_eq h
  have hread : (input.readIndex + 1) % inputQueueCapacity < inputQueueCapacity :=
    Nat.mod_lt _ (by decide)
  have hcount : ({ input with readIndex := (input.readIndex + 1) % inputQueueCapacity } :
      Input).inputPending = input.inputPending - 1 := by
    refine inputPending_of_write hread (by omega) ?_
    simp only [Nat.mod_add_mod]
    rw [hwrite]
    congr 1
    omega
  refine ⟨⟨hread, h.write⟩, ?_⟩
  unfold pendingEvents
  rw [hcount, Ring.contents_pop hpending, Nat.mod_eq_of_lt h.read]

theorem inputPoll_eq_none (h : input.Indexed) : input.inputPoll = none ↔ input.pendingEvents = [] := by
  rw [← List.length_eq_zero_iff, length_pendingEvents, inputPending_eq_zero h]
  unfold inputPoll
  split_ifs with heq
  · exact iff_of_true rfl heq
  · exact iff_of_false (by simp) heq

theorem isValid_eq_true : isValid event = true
    ↔ ¬(event.type < inputKeyDown ∨ inputMouseScroll < event.type) := by
  unfold isValid
  rw [not_or, UInt16.not_lt, UInt16.not_lt, Bool.and_eq_true, decide_eq_true_eq,
    decide_eq_true_eq]

theorem merge_pendingEvents (h : input.Indexed) (hne : input.readIndex ≠ input.writeIndex)
    {first : List InputEvent} {last : InputEvent} (hfirst : input.pendingEvents = first ++ [last])
    (event : InputEvent) :
    ({ input with
        queue := Function.update input.queue
          ((input.writeIndex + inputQueueCapacity - 1) % inputQueueCapacity) event } :
        Input).pendingEvents = first ++ [event] := by
  have hpending := (inputPending_eq_zero h).not.2 hne
  have hlt := (inputPending_eq h).1
  rw [pendingEvents_concat h hne] at hfirst
  obtain ⟨rfl, -⟩ := List.append_inj' hfirst rfl
  rw [previous_eq h hne]
  change Ring.contents inputQueueCapacity _ input.readIndex input.inputPending = _
  rw [← Ring.contents_push (by omega)]
  congr 1
  omega

theorem push_pendingEvents (h : input.Indexed)
    (hroom : input.inputPending ≠ inputQueueCapacity - 1) (event : InputEvent) :
    ({ input with
        queue := Function.update input.queue input.writeIndex event
        writeIndex := (input.writeIndex + 1) % inputQueueCapacity } : Input).pendingEvents
      = input.pendingEvents ++ [event] := by
  obtain ⟨hlt, hwrite⟩ := inputPending_eq h
  have hcount : ({ input with
      queue := Function.update input.queue input.writeIndex event
      writeIndex := (input.writeIndex + 1) % inputQueueCapacity } : Input).inputPending
      = input.inputPending + 1 := by
    refine inputPending_of_write h.read (by omega) ?_
    simp only [hwrite, Nat.mod_add_mod, Nat.add_assoc]
  unfold pendingEvents
  rw [hcount, hwrite, Ring.contents_push hlt]

theorem publish_cases (h : input.Indexed) (hvalid : isValid event = true) (dropped : UInt64)
    {waiting : List (Batch InputEvent)} (hwaiting : input.pendingEvents = waiting.map Batch.last) :
    (∃ waiting' input', put isMove (inputQueueCapacity - 1) waiting event = some waiting'
        ∧ input.publish dropped event = (true, input', dropped)
        ∧ input'.Indexed ∧ input'.pendingEvents = waiting'.map Batch.last)
      ∨ (put isMove (inputQueueCapacity - 1) waiting event = none
        ∧ input.publish dropped event = (false, input, dropped + 1)) := by
  have hlength : waiting.length = input.inputPending := by
    rw [← length_pendingEvents, hwaiting, List.length_map]
  have hnext : (input.writeIndex + 1) % inputQueueCapacity < inputQueueCapacity :=
    Nat.mod_lt _ (by decide)
  unfold publish
  dsimp only
  rw [if_neg (isValid_eq_true.1 hvalid)]
  rcases List.eq_nil_or_concat' waiting with rfl | ⟨first, b, rfl⟩
  · have hempty : input.readIndex = input.writeIndex :=
      (inputPending_eq_zero h).1 (by rw [← hlength]; rfl)
    have hroom : input.inputPending ≠ inputQueueCapacity - 1 := by
      rw [← hlength]
      decide
    rw [if_neg (fun hc => hc.2.1 hempty), if_neg ((full_iff h).not.2 hroom)]
    refine .inl ⟨_, _, rfl, rfl, ⟨h.read, hnext⟩, ?_⟩
    rw [push_pendingEvents h hroom, hwaiting]
    rfl
  · rw [List.length_append, List.length_singleton] at hlength
    have hne : input.readIndex ≠ input.writeIndex :=
      (inputPending_eq_zero h).not.1 (by omega)
    rw [List.map_append, List.map_singleton] at hwaiting
    have hlast : input.queue ((input.writeIndex + inputQueueCapacity - 1) % inputQueueCapacity)
        = b.last := by
      have hconcat := hwaiting
      rw [pendingEvents_concat h hne] at hconcat
      exact List.singleton_inj.1 (List.append_inj' hconcat rfl).2
    rw [put_concat, hlast]
    by_cases hmerges : event.type = inputMouseMove ∧ b.last.type = inputMouseMove
    · have hmoves : (isMove event && isMove b.last) = true := by
        unfold isMove
        rw [hmerges.1, hmerges.2]
        decide
      rw [if_pos hmoves, if_pos ⟨hmerges.1, hne, hmerges.2⟩]
      refine .inl ⟨_, _, rfl, rfl, ⟨h.read, h.write⟩, ?_⟩
      rw [merge_pendingEvents h hne hwaiting, List.map_append, List.map_singleton]
    · have hmoves : ¬(isMove event && isMove b.last) = true := by
        unfold isMove
        rw [Bool.and_eq_true, beq_iff_eq, beq_iff_eq]
        exact hmerges
      have hplace : ¬(event.type = inputMouseMove ∧ input.readIndex ≠ input.writeIndex
          ∧ b.last.type = inputMouseMove) := fun hc => hmerges ⟨hc.1, hc.2.2⟩
      rw [if_neg hmoves, if_neg hplace]
      by_cases hfull : input.inputPending = inputQueueCapacity - 1
      · have hroom : ¬first.length + 1 < inputQueueCapacity - 1 := by omega
        rw [if_neg hroom, if_pos ((full_iff h).2 hfull)]
        exact .inr ⟨rfl, rfl⟩
      · have hlt := (inputPending_eq h).1
        have hroom : first.length + 1 < inputQueueCapacity - 1 := by omega
        rw [if_pos hroom, if_neg ((full_iff h).not.2 hfull)]
        refine .inl ⟨_, _, rfl, rfl, ⟨h.read, hnext⟩, ?_⟩
        rw [push_pendingEvents h hfull, hwaiting, List.map_append, List.map_append]
        rfl

theorem publish_rejected (input : Input) (dropped : UInt64) (event : InputEvent)
    (h : (input.publish dropped event).1 = false) : (input.publish dropped event).2.1 = input := by
  unfold publish at h ⊢
  dsimp only at h ⊢
  split_ifs at h ⊢ <;> rfl

theorem publish_enqueue (input : Input) (dropped : UInt64)
    (h : ¬(event.type < inputKeyDown ∨ inputMouseScroll < event.type)) :
    (input.publish dropped event).2.1 = input.enqueue event := by
  unfold publish enqueue
  dsimp only
  rw [if_neg h]
  split_ifs <;> rfl

end

/-! ## Runs -/

structure Agrees (s : Trace) (q : Spool) : Prop where
  indexed : s.input.Indexed
  pending : s.input.pendingEvents = q.waiting.map Batch.last
  polled : s.polled = q.taken.map Batch.last
  accepted : s.accepted = elements (q.taken ++ q.waiting)
  merged : q.Merged
  length : q.waiting.length ≤ inputQueueCapacity - 1

section

variable {s : Trace} {q : Spool}

theorem publish_agrees (h : Agrees s q) (event : InputEvent) :
    Agrees (s.publish event) (q.publish event) := by
  unfold Trace.publish Spool.publish
  by_cases hvalid : isValid event = true
  · rw [if_pos hvalid]
    rcases publish_cases h.indexed hvalid s.dropped h.pending with
      ⟨waiting', input', hput, hpublish, hindexed, hpending⟩ | ⟨hput, hpublish⟩
    · rw [hput, hpublish]
      refine ⟨hindexed, hpending, h.polled, ?_, ⟨h.merged.kind, h.merged.tidy.put hput⟩,
        put_length hput h.length⟩
      simp only [if_true, Option.getD_some]
      rw [elements_append, put_elements hput, ← List.append_assoc, ← elements_append, h.accepted]
    · rw [hput, hpublish]
      exact ⟨h.indexed, h.pending, h.polled, h.accepted, h.merged, h.length⟩
  · have hpublish : s.input.publish s.dropped event = (false, s.input, s.dropped) := by
      unfold publish
      dsimp only
      rw [if_pos (not_not.1 fun hc => hvalid (isValid_eq_true.2 hc))]
    rw [if_neg hvalid, hpublish]
    exact ⟨h.indexed, h.pending, h.polled, h.accepted, h.merged, h.length⟩

theorem poll_agrees (h : Agrees s q) : Agrees s.poll q.poll := by
  have hpending := h.pending
  obtain ⟨taken, waiting⟩ := q
  unfold Trace.poll Spool.poll
  cases waiting with
  | nil =>
    rw [(inputPoll_eq_none h.indexed).2 hpending]
    exact h
  | cons b rest =>
    cases hpoll : s.input.inputPoll with
    | none =>
      rw [(inputPoll_eq_none h.indexed).1 hpoll] at hpending
      cases hpending
    | some r =>
      obtain ⟨event, input'⟩ := r
      obtain ⟨hindexed, hevents⟩ := inputPoll_pendingEvents h.indexed hpoll
      rw [hpending] at hevents
      obtain ⟨hlast, hrest⟩ := List.cons.inj hevents
      have hlength := h.length
      refine ⟨hindexed, hrest.symm, ?_, ?_, ⟨?_, h.merged.tidy.tail⟩, ?_⟩
      · simp only [h.polled, List.map_append, List.map_singleton]
        rw [hlast]
      · rw [h.accepted, List.append_assoc]
        rfl
      · intro c hc
        rcases List.mem_append.1 hc with hc | hc
        · exact h.merged.kind c hc
        · obtain rfl := List.mem_singleton.1 hc
          exact h.merged.tidy.kind c List.mem_cons_self
      · simp only [List.length_cons] at hlength
        simp only
        omega

theorem call_agrees (h : Agrees s q) : ∀ c : InputCall, Agrees (s.call c) (q.call c)
  | .publish event => publish_agrees h event
  | .poll => poll_agrees h

theorem run_agrees (h : Agrees s q) (calls : List InputCall) :
    Agrees (Machine.run Trace.call s calls) (Machine.run Spool.call q calls) := by
  induction calls generalizing s q with
  | nil => exact h
  | cons c calls ih => exact ih (call_agrees h c)

theorem init_agrees : Agrees {} {} :=
  ⟨⟨by decide, by decide⟩, rfl, rfl, rfl, ⟨fun _ h => absurd h List.not_mem_nil,
    ⟨fun _ h => absurd h List.not_mem_nil, .nil⟩⟩, by decide⟩

end

end Input

end DemonOS
