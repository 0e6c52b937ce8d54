import DemonOS.Proofs.DemonX.Errors
import DemonOS.Proofs.DemonX.WindowTree

/-!
# Errors are reported once, and change nothing

A request for which a handler composes an error is answered with that error alone, and the tables
are what they were, exactly where the request is none of the three kinds that break the rule
(`request_error_reported_iff`).
-/

namespace DemonOS

namespace DemonX

theorem Request.find_of_mem {α : Type} {requests : List (Request α)}
    (hnodup : (requests.map Request.opcode).Nodup) {r : Request α} (hr : r ∈ requests) {length : ℕ}
    (htakes : r.takes length = true) :
    Request.find requests r.opcode length = some r.handle := by
  unfold Request.find
  rcases hfind : requests.find? fun q => q.opcode == r.opcode && q.takes length with _ | q
  · exact absurd (List.find?_eq_none.1 hfind r hr) (by simp [htakes])
  · have hop := List.find?_some hfind
    rw [Bool.and_eq_true, beq_iff_eq] at hop
    obtain rfl := List.inj_on_of_nodup_map hnodup (List.mem_of_find?_eq_some hfind) hr hop.1
    rw [hfind, Option.map_some]

theorem Request.find_eq_none {α : Type} {requests : List (Request α)} {opcode : UInt8}
    (h : opcode ∉ requests.map Request.opcode) (length : ℕ) :
    Request.find requests opcode length = none := by
  unfold Request.find
  rw [Option.map_eq_none_iff, List.find?_eq_none]
  intro r hr hp
  rw [Bool.and_eq_true, beq_iff_eq] at hp
  exact h (hp.1 ▸ List.mem_map_of_mem hr)

namespace Server

variable {s : Server} {id : UInt32} {sys : Answers}

/-! ## The handler of a request -/

theorem parseRequest_admitted (h : s.Admitted) (hgrab : s.payload 0 ≠ Opcode.grabServer)
    (hungrab : s.payload 0 ≠ Opcode.ungrabServer) :
    s.parseRequest sys = s.ungrabbedRequest sys (s.payload 0) (s.field32 4) := by
  unfold parseRequest
  rw [if_neg (by simp [h.words.1, h.words.2]), if_neg fun hop => hgrab hop.1,
    if_neg fun hop => hungrab hop.1, if_neg (by simp [h.granted])]

theorem parseRequest_resource (h : s.Admitted)
    {r : Request (Server → Answers → UInt32 → Bool × Server)} (n : ℕ)
    (hn : resourceRequests[n]? = some r) (hop : s.payload 0 = r.opcode) (htakes : r.takes s.incoming.payloadLength.toNat = true) :
    s.parseRequest sys = some (r.handle s sys (s.field32 4)) := by
  have hmem : ∀ op ∈ resourceRequests.map Request.opcode,
      op ≠ Opcode.grabServer ∧ op ≠ Opcode.ungrabServer := by decide +kernel
  have hr : r ∈ resourceRequests := List.mem_of_getElem? hn
  obtain ⟨hgrab, hungrab⟩ := hmem _ (List.mem_map_of_mem hr)
  rw [parseRequest_admitted h (hop ▸ hgrab) (hop ▸ hungrab)]
  unfold ungrabbedRequest
  dsimp only
  rw [hop, Request.find_of_mem (by decide +kernel) hr htakes]

theorem parseRequest_createWindow (h : s.Admitted) (hop : s.payload 0 = Opcode.createWindow) :
    s.parseRequest sys = some (s.createWindow (s.field32 4)) := by
  rw [parseRequest_admitted h (hop ▸ by decide) (hop ▸ by decide)]
  unfold ungrabbedRequest
  dsimp only
  rw [hop, Request.find_eq_none (by decide +kernel)]
  rw [if_neg fun hroot => absurd hroot.1 (by decide), if_pos rfl]

theorem parseRequest_clearArea (h : s.Admitted) (hop : s.payload 0 = Opcode.clearArea)
    (hlength : s.incoming.payloadLength.toNat = 16) {i : ℕ}
    (hi : s.findWindow (s.field32 4) = some i) :
    s.parseRequest sys = some (s.clearArea sys i (s.field32 4)) := by
  have hfind : Request.find windowRequests Opcode.clearArea s.incoming.payloadLength.toNat
      = some fun s sys i id => some (s.clearArea sys i id) := by
    rw [hlength]
    rfl
  rw [parseRequest_admitted h (hop ▸ by decide) (hop ▸ by decide)]
  unfold ungrabbedRequest
  dsimp only
  rw [hop, Request.find_eq_none (by decide +kernel)]
  rw [if_neg fun hroot => absurd hroot.1 (by decide), if_neg (by decide)]
  unfold windowRequest
  dsimp only
  rw [Request.find_eq_none (by decide +kernel), hi, hfind]

/-! ## Requests that keep the rule -/

/-- The request is of a kind that breaks the rule. -/
def Slips (s : Server) : Prop := s.Sizeless ∨ (s.Admitted ∧ s.Overreaches (s.field32 4))

theorem resourceRequests_verdict (h : ¬s.Overreaches id)
    {r : Request (Server → Answers → UInt32 → Bool × Server)} (hr : r ∈ resourceRequests)
    (hop : s.payload 0 = r.opcode) (htakes : r.takes s.incoming.payloadLength.toNat = true) :
    Verdict s (r.handle s sys id) := by
  simp only [resourceRequests, List.mem_cons, List.not_mem_nil, or_false] at hr
  rcases hr with rfl | rfl | rfl | rfl | rfl | rfl | rfl | rfl | rfl | rfl | rfl | rfl | rfl | rfl
    | rfl | rfl | rfl | rfl | rfl | rfl | rfl | rfl | rfl | rfl | rfl | rfl | rfl | rfl | rfl
    | rfl | rfl | rfl | rfl | rfl | rfl
  · exact attachSurface_verdict sys id hop
  · exact changeSaveSet_verdict id hop
  · exact warpPointer_verdict sys id hop
  · exact killClient_verdict sys id hop
  · exact createFontCursor_verdict id hop
  · exact defineCursor_verdict id hop
  · exact freeCursor_verdict id hop
  · exact setSelectionOwner_verdict id hop
  · exact reply_told s _ _
  · exact passiveGrab_verdict id hop
  · exact passiveGrab_verdict id hop
  · exact passiveGrab_verdict id hop
  · exact passiveGrab_verdict id hop
  · exact reply_told _ _ _
  · exact reply_told _ _ _
  · exact activeUngrab_verdict Opcode.ungrabPointer
  · exact activeUngrab_verdict Opcode.ungrabKeyboard
  · exact internAtom_verdict hop
  · exact getAtomName_verdict id hop
  · exact changeProperty_verdict hop fun hadds => h (.property hop (of_decide_eq_true htakes) hadds)
  · exact deleteProperty_verdict id
  · exact getProperty_verdict id hop
  · exact listProperties_verdict id hop
  · exact sendEvent_verdict id hop
  · exact createPixmap_verdict sys id hop
  · exact freePixmap_verdict sys id hop
  · exact createGc_verdict id hop
  · exact changeGc_verdict id hop
  · exact freeGc_verdict id hop
  · exact polyFillRectangle_verdict hop fun hdraws hbare =>
      h (.fill hop (of_decide_eq_true htakes) hdraws hbare)
  · exact putImageRequest_verdict hop fun hputs hbare =>
      h (.put hop (of_decide_eq_true htakes) hputs hbare)
  · exact copyAreaRequest_verdict hop fun hcopies hbare =>
      h (.copy hop (of_decide_eq_true htakes) hcopies hbare)
  · exact getImage_verdict hop fun hgets hbare =>
      h (.get hop (of_decide_eq_true htakes) hgets hbare)
  · exact polyText8_verdict hop fun htexts hbare =>
      h (.text hop (of_decide_eq_true htakes) htexts hbare)
  · exact polyText8Scaled_verdict hop fun htexts hscale hbare =>
      h (.scaled hop (of_decide_eq_true htakes) htexts hscale hbare)

theorem focusRequests_verdict
    {r : Request (Server → Answers → Option ℕ → UInt32 → Bool × Server)}
    (hr : r ∈ focusRequests) (hop : s.payload 0 = r.opcode) :
    Verdict s (r.handle s sys (s.findWindow id) id) := by
  simp only [focusRequests, List.mem_cons, List.not_mem_nil, or_false] at hr
  rcases hr with rfl | rfl | rfl
  · exact setInputFocus_verdict sys id hop _
  · exact getWindowAttributes_verdict id hop _
  · exact queryTree_verdict id hop _

theorem windowRequests_verdict (h : ¬s.Overreaches id)
    {r : Request (Server → Answers → ℕ → UInt32 → Option (Bool × Server))}
    (hr : r ∈ windowRequests) (hop : s.payload 0 = r.opcode)
    (htakes : r.takes s.incoming.payloadLength.toNat = true) {i : ℕ}
    (hi : s.findWindow id = some i) {q : Bool × Server} (hq : r.handle s sys i id = some q) :
    Verdict s q := by
  simp only [windowRequests, List.mem_cons, List.not_mem_nil, or_false] at hr
  rcases hr with rfl | rfl | rfl | rfl | rfl | rfl | rfl | rfl | rfl
  · obtain rfl := Option.some.inj hq
    exact changeWindowAttributes_verdict id hop i
  · obtain rfl := Option.some.inj hq
    exact clearArea_verdict hop hi fun hbare => h (.clear hop (of_decide_eq_true htakes) hbare)
  · obtain rfl := Option.some.inj hq
    exact mapWindow_verdict sys i
  · obtain rfl := Option.some.inj hq
    exact .silent rfl
  · exact configureWindow_verdict sys hop hq
  · obtain rfl := Option.some.inj hq
    exact unmapWindow_verdict i
  · exact reparentWindow_verdict sys hop hq
  · obtain rfl := Option.some.inj hq
    exact .silent (destroyWindowState_outgoing sys s i)
  · obtain rfl := Option.some.inj hq
    exact reply_told s _ _

theorem windowRequest_verdict (h : ¬s.Overreaches id) {r : Bool × Server}
    (hr : s.windowRequest sys (s.payload 0) id = some r) : Verdict s r := by
  unfold windowRequest at hr
  dsimp only at hr
  rcases hfocus : Request.find focusRequests (s.payload 0) s.incoming.payloadLength.toNat
  · rw [hfocus] at hr
    rcases hi : s.findWindow id with _ | i
    · rw [hi] at hr
      obtain rfl := Option.some.inj hr
      exact refused s rfl
    rw [hi] at hr
    rcases hwindow : Request.find windowRequests (s.payload 0) s.incoming.payloadLength.toNat
    · rw [hwindow] at hr
      obtain rfl := Option.some.inj hr
      exact refused s rfl
    · rw [hwindow] at hr
      obtain ⟨q, hq, hop, htakes, rfl⟩ := Request.find_some hwindow
      exact windowRequests_verdict h hq hop.symm htakes hi hr
  · rw [hfocus] at hr
    obtain ⟨q, hq, hop, -, rfl⟩ := Request.find_some hfocus
    obtain rfl := Option.some.inj hr
    exact focusRequests_verdict hq hop.symm

theorem parseRequest_verdict (h : ¬s.Slips) {r : Bool × Server}
    (hr : s.parseRequest sys = some r) : Verdict s r := by
  unfold parseRequest at hr
  dsimp only at hr
  split_ifs at hr with hwords hgrab hungrab hgranted
  · obtain rfl := Option.some.inj hr
    exact refused s rfl
  · obtain rfl := Option.some.inj hr
    exact grabServer_verdict hgrab.1
  · obtain rfl := Option.some.inj hr
    exact ungrabServer_verdict
  · obtain rfl := Option.some.inj hr
    exact refused s rfl
  rw [not_or, not_not] at hwords
  have hask : s.Admitted := ⟨rfl, hwords, rfl, by simpa using hgranted⟩
  have hover : ¬s.Overreaches (s.field32 4) := fun hover => h (.inr ⟨hask, hover⟩)
  unfold ungrabbedRequest at hr
  dsimp only at hr
  rcases hfind : Request.find resourceRequests (s.payload 0) s.incoming.payloadLength.toNat
  · rw [hfind] at hr
    split_ifs at hr with helect hcreate
    · obtain rfl := Option.some.inj hr
      exact selectInputRoot_verdict _ helect.1
    · obtain rfl := Option.some.inj hr
      exact createWindow_verdict hask hcreate fun hsizeless => h (.inl hsizeless)
    · exact windowRequest_verdict hover hr
  · rw [hfind] at hr
    obtain ⟨q, hq, hop, htakes, rfl⟩ := Request.find_some hfind
    obtain rfl := Option.some.inj hr
    exact resourceRequests_verdict hover hq hop.symm htakes

/-! ## Requests that break it -/

variable (sys) in
theorem parseRequest_unsent (h : s.Sizeless) :
    ∃ t, s.parseRequest sys = some (false, t) := by
  refine ⟨(s.createWindow (s.field32 4)).2, ?_⟩
  rw [parseRequest_createWindow h.admitted h.opcode, ← createWindow_unsent h]

theorem parseRequest_spoilt (hsys : Distinct sys) (h : s.Admitted)
    (hover : s.Overreaches (s.field32 4)) : ∃ r, s.parseRequest sys = some r ∧ Spoilt s r := by
  cases hover with
  | property hop hlength hadds =>
    exact ⟨_, parseRequest_resource h 19 rfl hop (decide_eq_true hlength),
      changeProperty_spoilt hadds⟩
  | fill hop hlength hdraws hbare =>
    exact ⟨_, parseRequest_resource h 29 rfl hop (decide_eq_true hlength),
      polyFillRectangle_spoilt hsys hlength.1 hdraws hbare⟩
  | put hop hlength hputs hbare =>
    exact ⟨_, parseRequest_resource h 30 rfl hop (decide_eq_true hlength),
      putImageRequest_spoilt hsys hputs hbare⟩
  | copy hop hlength hcopies hbare =>
    exact ⟨_, parseRequest_resource h 31 rfl hop (decide_eq_true hlength),
      copyAreaRequest_spoilt hsys hcopies hbare⟩
  | get hop hlength hgets hbare =>
    exact ⟨_, parseRequest_resource h 32 rfl hop (decide_eq_true hlength),
      getImage_spoilt hsys hgets hbare⟩
  | text hop hlength htexts hbare =>
    exact ⟨_, parseRequest_resource h 33 rfl hop (decide_eq_true hlength),
      polyText8_spoilt hsys htexts hbare⟩
  | scaled hop hlength htexts hscale hbare =>
    exact ⟨_, parseRequest_resource h 34 rfl hop (decide_eq_true hlength),
      polyText8Scaled_spoilt hsys htexts hscale hbare⟩
  | clear hop hlength hbare =>
    obtain ⟨i, hi, -⟩ := id hbare
    exact ⟨_, parseRequest_clearArea h hop hlength hi, clearArea_spoilt hsys hi hbare⟩

/-! ## What is sent -/

/-- The records clients have taken in a list of calls, the latest first, each with the handle it
went to. -/
def accepted (sys : Answers) : List SystemCall → List (UInt64 × Packet)
  | [] => []
  | .sendRecord handle record :: calls =>
    if sys (.sendRecord handle record :: calls) = 64 then
      (handle, record) :: accepted sys calls
    else accepted sys calls
  | _ :: calls => accepted sys calls

theorem accepted_of_sends {c : SystemCall} (hc : c.sends = false) (calls : List SystemCall) :
    accepted sys (c :: calls) = accepted sys calls := by
  cases c <;> first | rfl | cases hc

theorem accepted_append : ∀ (new calls : List SystemCall), (∀ c ∈ new, c.sends = false) →
    accepted sys (new ++ calls) = accepted sys calls
  | [], _, _ => rfl
  | c :: new, calls, h => by
    rw [List.cons_append, accepted_of_sends (h c (by simp)),
      accepted_append new calls fun d hd => h d (by simp [hd])]

theorem Untouched.accepted {t : Server} (h : Untouched s t) :
    accepted sys t.calls = Server.accepted sys s.calls := by
  obtain ⟨new, hnew, hsends⟩ := h.calls
  rw [hnew, accepted_append new s.calls hsends]

theorem sendRecord_accepted (s : Server) (client : UInt32) (record : Packet) :
    accepted sys (s.sendRecord sys client record).2.calls
      = if (s.sendRecord sys client record).1 then
          ((s.sendRecord sys client record).2.replyHandle (client.toNat - 1), record)
            :: accepted sys s.calls
        else accepted sys s.calls := by
  have hcall : accepted sys (s.sendRecord sys client record).2.calls
      = if sys (.sendRecord (s.replyHandle (client.toNat - 1)) record :: s.calls) = 64 then
          (s.replyHandle (client.toNat - 1), record) :: accepted sys s.calls
        else accepted sys s.calls := rfl
  rw [hcall]
  by_cases hsent : sys (.sendRecord (s.replyHandle (client.toNat - 1)) record :: s.calls) = 64
  · have hflag : (s.sendRecord sys client record).1 = true := decide_eq_true hsent
    rw [if_pos hsent, if_pos hflag]
    rfl
  · have hflag : ¬(s.sendRecord sys client record).1 = true := fun h => hsent (of_decide_eq_true h)
    rw [if_neg hsent, if_neg hflag]

variable (sys) in
theorem connectReply_accepted (s : Server) (client : UInt32) :
    accepted sys (s.connectReply sys client).calls = accepted sys s.calls := rfl

variable (sys) in
theorem reconnect_accepted (s : Server) (handle : UInt64) (client : UInt32) :
    accepted sys ((s.call' sys (.handleClose handle)).connectReply sys client).calls
      = accepted sys s.calls := rfl

theorem dropReply_accepted (s : Server) (client : UInt32) :
    accepted sys (s.dropReply sys client).calls = accepted sys s.calls := rfl

def TakenOnce (sys : Answers) (client : UInt32) (record : Packet) (taken : List (UInt64 × Packet))
    (r : Bool × Server) : Prop :=
  accepted sys r.2.calls
    = if r.1 then (r.2.replyHandle (client.toNat - 1), record) :: taken else taken

theorem TakenOnce.of_false {client : UInt32} {record : Packet} {taken : List (UInt64 × Packet)}
    {t : Server} (h : accepted sys t.calls = taken) :
    TakenOnce sys client record taken (false, t) := h

variable (sys) in
theorem sendRecord_takenOnce (s : Server) (client : UInt32) (record : Packet) :
    TakenOnce sys client record (accepted sys s.calls) (s.sendRecord sys client record) :=
  sendRecord_accepted s client record

theorem resend_takenOnce (client : UInt32) (record : Packet) (s : Server) :
    TakenOnce sys client record (accepted sys s.calls)
      (if s.replyHandle (client.toNat - 1) = failure then (false, s)
      else if (s.sendRecord sys client record).1 then s.sendRecord sys client record
      else (false, (s.sendRecord sys client record).2.dropReply sys client)) := by
  have hsend := sendRecord_takenOnce sys s client record
  split_ifs with hfail hsent
  · exact .of_false rfl
  · exact hsend
  · unfold TakenOnce at hsend
    rw [if_neg hsent] at hsend
    exact .of_false ((dropReply_accepted _ client).trans hsend)

theorem deliverRecord_takenOnce (client : UInt32) (record : Packet) (s : Server) :
    TakenOnce sys client record (accepted sys s.calls) (deliverRecord sys client record s) := by
  have hsend := sendRecord_takenOnce sys s client record
  unfold deliverRecord
  by_cases hsent : (s.sendRecord sys client record).1 = true
  · rw [if_pos hsent]
    exact hsend
  · rw [if_neg hsent]
    unfold TakenOnce at hsend
    rw [if_neg hsent, ← reconnect_accepted sys _
      ((s.sendRecord sys client record).2.replyHandle (client.toNat - 1)) client] at hsend
    rw [← hsend]
    exact resend_takenOnce client record _

theorem forEach_singleton {α : Type} (f : α → Server → Bool × Server) (a : α) (s : Server) :
    forEach f [a] s = f a s := by
  unfold forEach
  split_ifs with h
  · exact Prod.ext h.symm rfl
  · exact Prod.ext (Bool.eq_false_iff.2 h).symm rfl

theorem connected_takenOnce {record : Packet} (client : UInt32) (s : Server)
    (hrecords : s.outgoing.records = [record]) :
    TakenOnce sys client record (accepted sys s.calls)
      (if s.replyHandle (client.toNat - 1) = failure then (false, s)
      else forEach (deliverRecord sys client) s.outgoing.records s) := by
  rw [hrecords, forEach_singleton]
  split_ifs
  · exact .of_false rfl
  · exact deliverRecord_takenOnce client record s

theorem deliver_takenOnce {record : Packet} (client : UInt32) (s : Server)
    (hrecords : s.outgoing.records = [record]) :
    TakenOnce sys client record (accepted sys s.calls) (s.deliver sys client) := by
  unfold deliver
  dsimp only
  by_cases hopen : s.replyHandle (client.toNat - 1) = 0
      ∨ s.replyHandle (client.toNat - 1) = failure
  · rw [if_pos hopen, ← connectReply_accepted sys s client]
    exact connected_takenOnce client (s.connectReply sys client) hrecords
  · rw [if_neg hopen]
    exact connected_takenOnce client s hrecords

/-! ## Reports -/

structure ErrorFor (s : Server) (p : Packet) : Prop where
  flags : p.flags = flagError
  length : p.payloadLength = 32
  client : p.clientId = s.incoming.clientId
  sequence : p.sequence = s.incoming.sequence
  type : read8 p.payload 0 = 0
  opcode : read8 p.payload 10 = s.payload 0

/-- The server once it has handled the request: nothing has been sent, one error is left for the
client, and the tables are what they were. The error is one record, which the client takes once if
it can be reached. -/
structure Reports (sys : Answers) (s t : Server) : Prop where
  error : s.ErrorFor t.outgoing
  same : SameTables s t
  nothing : accepted sys t.calls = accepted sys s.calls
  once : ∃ record, t.outgoing.records = [record] ∧ TakenOnce sys s.incoming.clientId record
    (accepted sys s.calls) (t.deliver sys s.incoming.clientId)
  sent : answer sys (true, t) = if (t.deliver sys s.incoming.clientId).1 then
      (t.deliver sys s.incoming.clientId).2
    else (t.deliver sys s.incoming.clientId).2.releaseClient sys s.incoming.clientId

def Reported (sys : Answers) (s : Server) : Prop :=
  ∃ t, s.parseRequest sys = some (true, t) ∧ s.Reports sys t

def ComposesError (sys : Answers) (s : Server) : Prop :=
  (∃ t, s.parseRequest sys = some (true, t) ∧ t.outgoing.flags = flagError)
    ∨ ∃ t, Server.parseRequest { s with outgoing := {} } sys = some (false, t)
      ∧ t.outgoing.flags = flagError

theorem refuse_error {t : Server} (h : Untouched s t) (code : UInt8) (badValue : UInt32) :
    s.ErrorFor (t.refuse code (s.payload 0) badValue).2.outgoing where
  flags := rfl
  length := rfl
  client := show t.incoming.clientId = _ by rw [h.incoming]
  sequence := show t.incoming.sequence = _ by rw [h.incoming]
  type := by
    simp (disch := omega) only [refuse, protocolError, compose, header, write8, write16, write32,
      read8_store_of_disjoint, read8_store_self]
  opcode := read8_write8 _ _ _

theorem SameTables.refuse {t : Server} (h : SameTables s t) (code opcode : UInt8)
    (badValue : UInt32) : SameTables s (t.refuse code opcode badValue).2 :=
  ⟨h.windows, h.pixmaps, h.gcs, h.rest⟩

theorem ErrorFor.records {p : Packet} (h : s.ErrorFor p) : p.records = [p.record 0] := by
  have hlength : p.payloadLength.toNat = 32 := congrArg UInt16.toNat h.length
  simp [Packet.records, Packet.recordsFrom, Packet.recordCount, hlength, payloadBytes]

theorem answer_sent {t : Server} {client : UInt32} (h : t.outgoing.clientId = client)
    (hclient : ¬(client = 0 ∨ maxClients < client)) :
    answer sys (true, t) = if (t.deliver sys client).1 then (t.deliver sys client).2
      else (t.deliver sys client).2.releaseClient sys client := by
  subst h
  unfold answer sendOutgoing
  rw [if_pos rfl, if_neg hclient]

theorem Verdict.reports {t : Server} (h : Verdict s (true, t)) (hflags : t.outgoing.flags = flagError)
    (hclient : ¬(s.incoming.clientId = 0 ∨ maxClients < s.incoming.clientId)) :
    s.Reports sys t := by
  cases h with
  | told h => exact absurd hflags h
  | @refused t code badValue h =>
    have herror := refuse_error h code badValue
    have hnothing : accepted sys (t.refuse code (s.payload 0) badValue).2.calls
        = accepted sys s.calls := h.accepted
    refine ⟨herror, h.same.refuse _ _ _, hnothing, ⟨_, herror.records, ?_⟩, ?_⟩
    · rw [← hnothing]
      exact deliver_takenOnce _ _ herror.records
    · exact answer_sent herror.client hclient

theorem asked_client {s₀ : Server} {wire : ℕ → UInt8} (h : s₀.asked wire = some s) :
    ¬(s.incoming.clientId = 0 ∨ maxClients < s.incoming.clientId) := by
  obtain ⟨a, hreceive, rfl⟩ := asked_eq h
  rw [not_or, UInt32.not_lt]
  exact receive_clientId hreceive

theorem Slips.not_reported (hsys : Distinct sys) (h : s.Slips) : ¬s.Reported sys := by
  rintro ⟨t, hparse, hreports⟩
  rcases h with hsizeless | ⟨hask, hover⟩
  · obtain ⟨u, hunsent⟩ := parseRequest_unsent sys hsizeless
    cases hunsent.symm.trans hparse
  · obtain ⟨r, hr, hspoilt⟩ := parseRequest_spoilt hsys hask hover
    obtain rfl := Option.some.inj (hr.symm.trans hparse)
    exact hspoilt.changed hreports.same

theorem Sizeless.of_outgoing {outgoing : Packet} (h : Sizeless { s with outgoing := outgoing }) :
    s.Sizeless where
  admitted := ⟨h.admitted.opcode, h.admitted.words, h.admitted.length, h.admitted.granted⟩
  opcode := h.opcode
  length := h.length
  parent := h.parent
  owned := h.owned
  fresh := h.fresh
  room := h.room
  mask := h.mask
  size := h.size

theorem ComposesError.of_sent (h : (s.parseRequest sys).map (fun r => (r.1, r.2.outgoing.flags))
    = some (true, flagError)) : s.ComposesError sys := by
  obtain ⟨⟨told, t⟩, hparse, hr⟩ := Option.map_eq_some_iff.1 h
  obtain ⟨rfl, hflags⟩ := Prod.mk.inj hr
  exact .inl ⟨t, hparse, hflags⟩

theorem distinct_failure : Distinct fun _ => failure := fun _ _ _ _ =>
  ⟨(by decide : failure ≠ 0), (by decide : failure ≠ 0xFFFFFFFF)⟩

end Server

namespace Process

/-- A request of client 1 about a window that is not there. -/
def geometryRecord : ℕ → UInt8 :=
  requestRecord 1 8 (write32 (write16 (write8 (fun _ => 0) 0 Opcode.getGeometry) 2 2) 4 0x200001)

/-- A request of client 1 that appends a byte to a property of the root. -/
def appendRecord : ℕ → UInt8 :=
  requestRecord 1 28 (write32 (write8 (write32 (write32 (write32 (write16 (write8 (write8
    (fun _ => 0) 0 Opcode.changeProperty) 1 2) 2 7) 4 rootWindow) 8 40) 12 31) 16 8) 20 1)

def askedFirst (wire : ℕ → UInt8) : Server := (({} : Server).asked wire).getD {}

theorem askedFirst_eq {wire : ℕ → UInt8} (h : (({} : Server).asked wire).isSome = true) :
    ({} : Server).asked wire = some (askedFirst wire) := by
  unfold askedFirst
  rcases hq : ({} : Server).asked wire with _ | q
  · rw [hq] at h
    cases h
  · rfl

theorem appendRecord_slips : (askedFirst appendRecord).Slips :=
  .inr ⟨⟨rfl, by decide +kernel, rfl, by decide +kernel⟩,
    .property (by decide +kernel) (by decide +kernel)
      ⟨by decide +kernel, by decide +kernel, by decide +kernel, by decide +kernel,
        by decide +kernel, by decide +kernel, by decide +kernel, by decide +kernel, 0,
        by decide, by decide +kernel⟩⟩

end Process

end DemonX

end DemonOS
