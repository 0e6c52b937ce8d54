import DemonOS.Proofs.DemonX.Handlers

/-!
# A turn of the DemonX server

What a record does is a plain path but for a few requests and the compositor's message that a window
is closed (`parseRequest_handled`, `nativeInput_handled`). The packet it leaves is delivered, or its
client is released (`sendOutgoing_cases`).
-/

namespace DemonOS

namespace DemonX

namespace Server

variable (sys : Answers)

/-! ## Requests -/

structure SelectsRoot (s : Server) : Prop where
  opcode : s.payload 0 = Opcode.selectInput
  id : s.field32 4 = rootWindow
  words : s.field16 2 = 3
  length : s.incoming.payloadLength = 12
  granted : s.mayRequest = true

/-- The request is well formed and of the length, and no grab of the server stops it. -/
structure Asks (s : Server) (opcode : UInt8) (length : ℕ) : Prop where
  opcode : s.payload 0 = opcode
  words : s.field16 2 ≠ 0 ∧ (s.field16 2).toNat * 4 = s.incoming.payloadLength.toNat
  length : s.incoming.payloadLength.toNat = length
  granted : s.mayRequest = true

inductive Handled (s : Server) (id : UInt32) : Bool × Server → Prop
  | plain {r : Bool × Server} (h : Path sys EditKind.plain s r.2) : Handled s id r
  | create (hask : s.Asks Opcode.createWindow s.incoming.payloadLength.toNat) : Handled s id (s.createWindow id)
  | elect (hroot : s.SelectsRoot) : Handled s id (s.selectInputRoot id)
  | attach (hask : s.Asks Opcode.attachSurface 16) : Handled s id (s.attachSurface sys id)
  | kill (hask : s.Asks Opcode.killClient 8) : Handled s id (s.killClient sys id)
  | focus (hask : s.Asks Opcode.setInputFocus 12) :
      Handled s id (s.setInputFocus sys (s.findWindow id) id)
  | configure {i : ℕ} {r : Bool × Server}
      (hask : s.Asks Opcode.configureWindow s.incoming.payloadLength.toNat)
      (hi : s.findWindow id = some i) (hr : s.configureWindow sys i = some r) : Handled s id r
  | reparent {i : ℕ} {r : Bool × Server} (hask : s.Asks Opcode.reparentWindow 16)
      (hi : s.findWindow id = some i) (hr : s.reparentWindow sys i = some r) : Handled s id r
  | grab {opcode : UInt8} (hask : s.Asks opcode 24)
      (hop : opcode = Opcode.grabKey ∨ opcode = Opcode.grabButton) :
      Handled s id (s.passiveGrab opcode id)
  | destroy {i : ℕ} (hask : s.Asks Opcode.destroyWindow 8) (hi : s.findWindow id = some i) :
      Handled s id (s.destroyWindow sys i)

variable {sys} {s : Server} {id : UInt32}

theorem Handled.quiet {r : Bool × Server} (h : Quiet s r.2) : Handled sys s id r :=
  .plain h.plain

/-- An outcome of a request for `id`: there is none where a walk over the windows does not end. -/
def Accounts (sys : Answers) (s : Server) (id : UInt32) (o : Option (Bool × Server)) : Prop :=
  (∀ r, o = some r → Handled sys s id r) ∧ (o = none → ∃ i, s.findWindow id = some i
    ∧ (s.configureWindow sys i = none
      ∨ (s.Asks Opcode.reparentWindow 16 ∧ s.reparentWindow sys i = none)))

theorem Handled.accounts {r : Bool × Server} (h : Handled sys s id r) :
    Accounts sys s id (some r) := ⟨fun _ hr => Option.some.inj hr ▸ h, nofun⟩

theorem refuse_accounts (code opcode : UInt8) (badValue : UInt32) :
    Accounts sys s id (some (s.refuse code opcode badValue)) :=
  (Handled.quiet (refuse_beside s _ _ _)).accounts

theorem Request.find_some {α : Type} {requests : List (Request α)} {opcode : UInt8} {length : ℕ}
    {handle : α} (h : Request.find requests opcode length = some handle) :
    ∃ r ∈ requests, r.opcode = opcode ∧ r.takes length = true ∧ r.handle = handle := by
  obtain ⟨r, hr, rfl⟩ := Option.map_eq_some_iff.1 h
  have hp := List.find?_some hr
  rw [Bool.and_eq_true, beq_iff_eq] at hp
  exact ⟨r, List.mem_of_find?_eq_some hr, hp.1, hp.2, rfl⟩

/-- The request is well formed, and no grab of the server stops it. -/
def Admitted (s : Server) : Prop :=
  s.Asks (s.payload 0) s.incoming.payloadLength.toNat

theorem Admitted.asks {opcode : UInt8} {length : ℕ} (h : s.Admitted) (hop : s.payload 0 = opcode)
    (hlength : s.incoming.payloadLength.toNat = length) : s.Asks opcode length := by
  subst hop hlength
  exact h

theorem resourceRequests_handled (h : s.Admitted) {r : Request (Server → Answers → UInt32 → Bool × Server)}
    (hr : r ∈ resourceRequests) (hop : s.payload 0 = r.opcode)
    (hlength : r.takes s.incoming.payloadLength.toNat = true) :
    Handled sys s id (r.handle s sys id) := by
  simp only [resourceRequests, List.mem_cons, List.not_mem_nil, or_false] at hr
  rcases hr with rfl | rfl | rfl | rfl | rfl | rfl | rfl | rfl | rfl | rfl | rfl | rfl | rfl | rfl
    | rfl | rfl | rfl | rfl | rfl | rfl | rfl | rfl | rfl | rfl | rfl | rfl | rfl | rfl | rfl
    | rfl | rfl | rfl | rfl | rfl | rfl
  · exact .attach (h.asks hop (of_decide_eq_true hlength))
  · exact .plain (changeSaveSet_path sys s id)
  · exact .quiet (warpPointer_quiet sys s id)
  · exact .kill (h.asks hop (of_decide_eq_true hlength))
  · exact .quiet (createFontCursor_beside s id)
  · exact .plain (defineCursor_path sys s id)
  · exact .plain (freeCursor_path sys s id)
  · exact .quiet (setSelectionOwner_beside s id)
  · exact .quiet (getSelectionOwner_beside s id)
  · exact .grab (h.asks hop (of_decide_eq_true hlength)) (.inl rfl)
  · exact .grab (h.asks hop (of_decide_eq_true hlength)) (.inr rfl)
  · exact .quiet (passiveGrab_beside s (.inl rfl) id)
  · exact .quiet (passiveGrab_beside s (.inr rfl) id)
  · exact .quiet (activeGrab_beside s _ id)
  · exact .quiet (activeGrab_beside s _ id)
  · exact .quiet (activeUngrab_beside s _)
  · exact .quiet (activeUngrab_beside s _)
  · exact .quiet (internAtom_beside s)
  · exact .quiet (getAtomName_beside s id)
  · exact .quiet (changeProperty_beside s id)
  · exact .quiet (deleteProperty_beside s id)
  · exact .quiet (getProperty_beside s id)
  · exact .quiet (listProperties_beside s id)
  · exact .quiet (sendEvent_beside s id)
  · exact .plain (createPixmap_path sys s id)
  · exact .plain (freePixmap_path sys s id)
  · exact .quiet (createGc_beside s id)
  · exact .quiet (changeGc_beside s id)
  · exact .quiet (freeGc_beside s id)
  · exact .plain (polyFillRectangle_path sys s id)
  · exact .plain (putImageRequest_path sys s id)
  · exact .plain (copyAreaRequest_path sys s id)
  · exact .plain (getImage_path sys s id)
  · exact .plain (polyText8_path sys s id)
  · exact .plain (polyText8Scaled_path sys s id)

theorem focusRequests_handled (h : s.Admitted)
    {r : Request (Server → Answers → Option ℕ → UInt32 → Bool × Server)}
    (hr : r ∈ focusRequests) (hop : s.payload 0 = r.opcode)
    (hlength : r.takes s.incoming.payloadLength.toNat = true) :
    Handled sys s id (r.handle s sys (s.findWindow id) id) := by
  simp only [focusRequests, List.mem_cons, List.not_mem_nil, or_false] at hr
  rcases hr with rfl | rfl | rfl
  · exact .focus (h.asks hop (of_decide_eq_true hlength))
  · exact .quiet (getWindowAttributes_beside s _ id)
  · exact .quiet (queryTree_beside s _ id)

theorem windowRequests_accounts (h : s.Admitted)
    {r : Request (Server → Answers → ℕ → UInt32 → Option (Bool × Server))}
    (hr : r ∈ windowRequests) (hop : s.payload 0 = r.opcode)
    (hlength : r.takes s.incoming.payloadLength.toNat = true) {i : ℕ}
    (hi : s.findWindow id = some i) : Accounts sys s id (r.handle s sys i id) := by
  obtain ⟨hlt, hused, -⟩ := findWindow_some hi
  simp only [windowRequests, List.mem_cons, List.not_mem_nil, or_false] at hr
  rcases hr with rfl | rfl | rfl | rfl | rfl | rfl | rfl | rfl | rfl
  · exact (Handled.plain (changeWindowAttributes_path sys s i id)).accounts
  · exact (Handled.plain (clearArea_path sys s hlt hused id)).accounts
  · exact (Handled.plain (mapWindow_path sys s hlt hused)).accounts
  · exact (Handled.plain (selectInput_path sys s i)).accounts
  · exact ⟨fun t ht => .configure (h.asks hop rfl) hi ht, fun hnone => ⟨i, hi, .inl hnone⟩⟩
  · exact (Handled.plain (unmapWindow_path sys s i)).accounts
  · have hask := h.asks hop (of_decide_eq_true hlength)
    exact ⟨fun t ht => .reparent hask hi ht, fun hnone => ⟨i, hi, .inr ⟨hask, hnone⟩⟩⟩
  · exact (Handled.destroy (h.asks hop (of_decide_eq_true hlength)) hi).accounts
  · exact (Handled.quiet (reply_beside s _ _)).accounts

theorem windowRequest_accounts (h : s.Admitted) : Accounts sys s id (s.windowRequest sys (s.payload 0) id) := by
  unfold windowRequest
  dsimp only
  rcases hfocus : Request.find focusRequests (s.payload 0) s.incoming.payloadLength.toNat
  · rcases hi : s.findWindow id with _ | i
    · exact refuse_accounts _ _ _
    rcases hwindow : Request.find windowRequests (s.payload 0) s.incoming.payloadLength.toNat
    · exact refuse_accounts _ _ _
    · obtain ⟨r, hr, hop, hlength, rfl⟩ := Request.find_some hwindow
      exact windowRequests_accounts h hr hop.symm hlength hi
  · obtain ⟨r, hr, hop, hlength, rfl⟩ := Request.find_some hfocus
    exact (focusRequests_handled h hr hop.symm hlength).accounts

theorem words_three {words length : UInt16} (hwords : words.toNat * 4 = length.toNat)
    (hlength : length.toNat = 12) : words = 3 ∧ length = 12 :=
  ⟨UInt16.toNat_inj.1 (by simp; omega), UInt16.toNat_inj.1 (by simp; omega)⟩

theorem ungrabbedRequest_accounts (h : s.Admitted) :
    Accounts sys s (s.field32 4) (s.ungrabbedRequest sys (s.payload 0) (s.field32 4)) := by
  unfold ungrabbedRequest
  dsimp only
  rcases hfind : Request.find resourceRequests (s.payload 0) s.incoming.payloadLength.toNat
  · dsimp only
    split_ifs with helect hcreate
    · obtain ⟨hthree, htwelve⟩ := words_three h.words.2 helect.2.2
      exact (Handled.elect ⟨helect.1, helect.2.1, hthree, htwelve, h.granted⟩).accounts
    · exact (Handled.create (h.asks hcreate rfl)).accounts
    · exact windowRequest_accounts h
  · obtain ⟨r, hr, hop, hlength, rfl⟩ := Request.find_some hfind
    exact (resourceRequests_handled h hr hop.symm hlength).accounts

theorem parseRequest_accounts (sys : Answers) (s : Server) :
    Accounts sys s (s.field32 4) (s.parseRequest sys) := by
  unfold parseRequest
  dsimp only
  split_ifs with hwords _ _ hgranted
  · exact refuse_accounts _ _ _
  · exact (Handled.quiet (grabServer_beside s)).accounts
  · exact (Handled.quiet (ungrabServer_beside s)).accounts
  · exact refuse_accounts _ _ _
  · rw [not_or, not_not] at hwords
    exact ungrabbedRequest_accounts ⟨rfl, hwords, rfl, by simpa using hgranted⟩

/-! ## The compositor's messages -/

theorem tellInput_quiet (s : Server) (id owner : UInt32) (input : Input) (grab : Grab) :
    Quiet s (s.tellInput id owner input grab).2 := by
  unfold tellInput
  split_ifs
  · exact .refl s
  all_goals exact event_beside s _ _

theorem takeGrab_beside {P : SystemCall → Prop} (s : Server) (passive : Option ℕ) :
    Beside P s (s.takeGrab passive) := by
  rcases passive with _ | i
  · exact .refl s
  · exact .aside rfl rfl rfl

theorem buttonInput_quiet {s t : Server} {m : ℕ → UInt8} {w : Window} {grab grab' : Grab}
    {input : Input} (h : s.buttonInput m w grab = some (input, grab', t)) : Quiet s t := by
  unfold buttonInput at h
  by_cases hselects : (!selects (if grab.client = 0 then w.eventMask else s.pointerGrabMask)
      (if decide (read32 m 24 = 2) = true then buttonReleaseMask else buttonPressMask)) = true
  · rw [if_pos hselects] at h
    cases h
  · rw [if_neg hselects] at h
    obtain rfl := (Prod.mk.inj (Prod.mk.inj (Option.some.inj h)).2).2
    exact takeGrab_beside s _

theorem nativeEvent_quiet (s : Server) (m : ℕ → UInt8) (opcode i : ℕ) (grab : Grab) :
    Quiet s (s.nativeEvent m opcode i grab).2 := by
  unfold nativeEvent
  dsimp only
  split
  · split
    · exact .refl s
    · exact tellInput_quiet s _ _ _ _
  split
  · rcases hbutton : s.buttonInput m (s.window i) grab with _ | ⟨input, grab', t⟩
    · exact .refl s
    · exact (buttonInput_quiet hbutton).trans (tellInput_quiet t _ _ _ _)
  split
  · split
    · exact .refl s
    · exact tellInput_quiet s _ _ _ _
  · exact .refl s

theorem nativeInput_cases (sys : Answers) (s : Server) (m : ℕ → UInt8) :
    Quiet s (s.nativeInput sys m).2
      ∨ (read16 m 2).toNat = windowClose
        ∧ ∃ i, s.findWindow (read32 m 8) = some i ∧ s.nativeInput sys m = s.nativeClose sys i := by
  unfold nativeInput
  dsimp only
  split_ifs with hclose
  · rcases s.findWindow (read32 m 8) with _ | i
    · exact .inl (.refl s)
    · exact .inr ⟨hclose, i, rfl, rfl⟩
  · left
    rcases s.findWindow _ with _ | i
    · exact .refl s
    · exact nativeEvent_quiet s m _ i _
  · left
    rcases s.findWindow _ with _ | i
    · exact .refl s
    · exact nativeEvent_quiet s m _ i _

/-! ## Sending -/

def EditKind.linking (client : UInt32) (good : Bool) : EditKind → Prop
  | .quiet => True
  | .link c g => c = client ∧ (good = true → g = true)
  | _ => False

theorem EditKind.linking_weaken {client : UInt32} {good : Bool} :
    ∀ k : EditKind, linking client true k → linking client good k
  | .quiet, _ => trivial
  | .link _ _, h => ⟨h.1, fun _ => h.2 rfl⟩
  | .draw, h | .adjust, h | .surface, h | .pixmap, h | .retire, h | .release, h => h.elim

theorem Quiet.linking {t : Server} {client : UInt32} {good : Bool} (h : Quiet s t) :
    Path sys (EditKind.linking client good) s t := h.path trivial

@[simp] theorem replyHandle_setReplyHandle (s : Server) (c : ℕ) (handle : UInt64) :
    (s.setReplyHandle c handle).replyHandle c = handle := read64_write64 s.memory _ handle

theorem connectReply_path (s : Server) (client : UInt32) {good : Bool}
    (h : good = true → (s.connectReply sys client).replyHandle (client.toNat - 1) ≠ failure) :
    Path sys (EditKind.linking client good) s (s.connectReply sys client) := by
  unfold connectReply at h ⊢
  rw [replyHandle_setReplyHandle] at h
  exact (Quiet.linking (call'_quiet sys s (c := .connectReply client) rfl)).trans
    (.single (.link (.inr ⟨⟨_, rfl⟩, h⟩)) ⟨rfl, id⟩)

theorem sendRecord_quiet (s : Server) (client : UInt32) (record : Packet) :
    Quiet s (s.sendRecord sys client record).2 := call_beside s sys rfl

theorem dropReply_path (s : Server) (client : UInt32) {good : Bool} :
    Path sys (EditKind.linking client good) s (s.dropReply sys client) :=
  (Quiet.linking (call'_quiet sys s rfl)).trans
    (.single (@Edit.link sys _ client _ true (.inl rfl)) ⟨rfl, fun _ => rfl⟩)

theorem deliverRecord_path (client : UInt32) (record : Packet) (s : Server) :
    Path sys (EditKind.linking client (deliverRecord sys client record s).1) s
      (deliverRecord sys client record s).2 := by
  have hsend : Quiet s (s.sendRecord sys client record).2 := sendRecord_quiet s client record
  unfold deliverRecord
  dsimp only
  set t := (s.sendRecord sys client record).2
  have hclose := call'_quiet sys t (c := .handleClose (t.replyHandle (client.toNat - 1))) rfl
  set u := (t.call' sys (.handleClose (t.replyHandle (client.toNat - 1)))).connectReply sys client
  have hconnect : ∀ good, (good = true → u.replyHandle (client.toNat - 1) ≠ failure) →
      Path sys (EditKind.linking client good) s u := fun good hgood =>
    hsend.linking.trans (hclose.linking.trans (connectReply_path _ client hgood))
  have hagain : Quiet u (u.sendRecord sys client record).2 := sendRecord_quiet u client record
  split_ifs with hsent hfail hsent'
  · exact hsend.linking
  · exact hconnect false nofun
  · rw [hsent']
    exact (hconnect true fun _ => hfail).trans hagain.linking
  · exact (hconnect false nofun).trans (hagain.linking.trans (dropReply_path _ client))

theorem forEach_linking {client : UInt32} {f : Packet → Server → Bool × Server}
    (hf : ∀ record s, Path sys (EditKind.linking client (f record s).1) s (f record s).2) :
    ∀ (l : List Packet) (s : Server),
      Path sys (EditKind.linking client (forEach f l s).1) s (forEach f l s).2
  | [], s => .refl s
  | record :: l, s => by
    have hrecord := hf record s
    unfold forEach
    split_ifs with hsent
    · rw [hsent] at hrecord
      exact (hrecord.mono EditKind.linking_weaken).trans (forEach_linking hf l _)
    · exact hrecord.mono fun k hk => by rwa [Bool.eq_false_iff.2 hsent] at hk

theorem deliver_path (s : Server) (client : UInt32) :
    Path sys (EditKind.linking client (s.deliver sys client).1) s (s.deliver sys client).2 := by
  unfold deliver
  dsimp only
  by_cases hconnect : s.replyHandle (client.toNat - 1) = 0
      ∨ s.replyHandle (client.toNat - 1) = failure
  · rw [if_pos hconnect]
    by_cases hfail : (s.connectReply sys client).replyHandle (client.toNat - 1) = failure
    · rw [if_pos hfail]
      exact connectReply_path s client nofun
    · rw [if_neg hfail]
      exact ((connectReply_path s client fun _ => hfail).mono EditKind.linking_weaken).trans
        (forEach_linking (fun record s => deliverRecord_path client record s) _ _)
  · rw [if_neg hconnect, if_neg fun h => hconnect (.inr h)]
    exact forEach_linking (fun record s => deliverRecord_path client record s) _ _

/-- A packet that is not for a slot goes nowhere; any other is delivered, or its client is
released. -/
theorem sendOutgoing_cases (sys : Answers) (s : Server) :
    s.sendOutgoing sys = s
      ∨ (s.outgoing.clientId ≠ 0 ∧ s.outgoing.clientId ≤ maxClients
        ∧ (((s.deliver sys s.outgoing.clientId).1 = true
            ∧ s.sendOutgoing sys = (s.deliver sys s.outgoing.clientId).2)
          ∨ ((s.deliver sys s.outgoing.clientId).1 = false
            ∧ s.sendOutgoing sys = (s.deliver sys s.outgoing.clientId).2.releaseClient sys
              s.outgoing.clientId))) := by
  unfold sendOutgoing
  dsimp only
  by_cases hslot : s.outgoing.clientId = 0 ∨ maxClients < s.outgoing.clientId
  · exact .inl (if_pos hslot)
  · rw [if_neg hslot]
    rw [not_or, UInt32.not_lt] at hslot
    refine .inr ⟨hslot.1, hslot.2, ?_⟩
    rcases hdelivered : (s.deliver sys s.outgoing.clientId).1 with _ | _
    · exact .inr ⟨rfl, rfl⟩
    · exact .inl ⟨rfl, rfl⟩

theorem answer_cases (sys : Answers) (r : Bool × Server) :
    answer sys r = r.2 ∨ (r.1 = true ∧ answer sys r = r.2.sendOutgoing sys) := by
  rcases r with ⟨_ | _, t⟩
  · exact .inl rfl
  · exact .inr ⟨rfl, rfl⟩

theorem focusOn_quiet (sys : Answers) (s : Server) (i : ℕ) : Quiet s (s.focusOn sys i).2 := by
  have hfocus : Quiet s { s with focusedWindow := (s.window i).id } := .aside rfl rfl rfl
  have hensure := ensureDesktopHandles_quiet sys { s with focusedWindow := (s.window i).id }
  unfold focusOn
  dsimp only
  split_ifs
  · exact hfocus.trans (hensure.trans ((sendCompositor_quiet sys _ _).trans
      (focusNotify_beside _ _ _)))
  · exact hfocus.trans (hensure.trans (focusNotify_beside _ _ _))

theorem setInputFocus_cases (sys : Answers) (s : Server) (window : Option ℕ) (id : UInt32) :
    Quiet s (s.setInputFocus sys window id).2
      ∨ ∃ i, window = some i ∧ (s.window i).mapped ≠ 0 ∧ s.payload 1 ≤ 2
        ∧ s.findWindow s.focusedWindow ≠ some i ∧ s.setInputFocus sys window id
        = (answer sys (s.focusNotify (s.findWindow s.focusedWindow) 10)).focusOn sys i := by
  unfold setInputFocus
  rcases window with _ | i
  · exact .inl (refuse_beside s _ _ _)
  dsimp only
  split_ifs with hbad hsame
  · exact .inl (refuse_beside s _ _ _)
  · exact .inl (.refl s)
  · rw [not_or, UInt8.not_lt] at hbad
    exact .inr ⟨i, rfl, hbad.1, hbad.2, hsame, rfl⟩

theorem selectInputRoot_cases (s : Server) (id : UInt32) :
    Quiet s (s.selectInputRoot id).2
      ∨ ∃ mask client owner, (s.selectInputRoot id).2 = { s with
          rootEventMask := mask, rootEventClient := client, rootRedirectClient := owner } := by
  unfold selectInputRoot
  by_cases hrefused : selects (s.field32 8) substructureRedirectMask ∧ s.rootRedirectClient ≠ 0
      ∧ s.rootRedirectClient ≠ s.incoming.clientId
  · rw [if_pos hrefused]
    exact .inl (refuse_beside s _ _ _)
  · rw [if_neg hrefused]
    exact .inr ⟨_, _, _, rfl⟩

/-! ## Turns -/

theorem parseSetup_quiet {s t : Server} (h : s.parseSetup = some t) : Quiet s t := by
  unfold parseSetup at h
  split_ifs at h
  obtain rfl := Option.some.inj h
  exact reply_beside s _ _

theorem asked_eq {s q : Server} {wire : ℕ → UInt8} (h : s.asked wire = some q) :
    ∃ a, s.assembly.receive (Packet.ofWire wire) = .ok a ∧ q = { s with assembly := a } := by
  unfold asked at h
  split at h
  · rename_i assembly _ hreceive
    split_ifs at h
    exact ⟨assembly, hreceive, (Option.some.inj h).symm⟩
  · cases h

/-- What a record does before the packet it leaves is sent: it comes from the compositor, ends the
server, continues a message or is a setup, or is a whole request. -/
theorem handle_cases (sys : Answers) (s : Server) (wire : ℕ → UInt8) :
    (isNative wire = true ∧ s.handle sys wire = some (.ok (s.nativeInput sys wire)))
      ∨ (∃ code, s.handle sys wire = some (.error code))
      ∨ (∃ a b t, s.assembly.receive (Packet.ofWire wire) = .ok a
        ∧ s.handle sys wire = some (.ok (b, t)) ∧ Quiet { s with assembly := a } t)
      ∨ ∃ a, s.assembly.receive (Packet.ofWire wire) = .ok a
        ∧ s.asked wire = some { s with assembly := a }
        ∧ s.handle sys wire = (Server.parseRequest { s with assembly := a } sys).map .ok := by
  unfold handle asked
  rcases hnative : isNative wire with _ | _
  · rw [if_neg (by simp)]
    right
    rcases hreceive : s.assembly.receive (Packet.ofWire wire) with code | a
    · exact .inl ⟨code, rfl⟩
    dsimp only
    by_cases hactive : a.active = true
    · rw [if_pos hactive]
      exact .inr (.inl ⟨a, _, _, rfl, rfl, .refl _⟩)
    rw [if_neg hactive]
    unfold dispatch
    by_cases hsetup : (Server.incoming { s with assembly := a }).flags &&& flagSetup ≠ 0
    · rw [if_pos hsetup]
      rcases hparse : Server.parseSetup { s with assembly := a } with _ | t
      · exact .inl ⟨123, rfl⟩
      · exact .inr (.inl ⟨a, true, t, rfl, rfl, parseSetup_quiet hparse⟩)
    · rw [if_neg hsetup]
      refine .inr (.inr ⟨a, rfl, if_neg ?_, rfl⟩)
      rw [Bool.or_eq_true, bne_iff_ne]
      exact not_or.2 ⟨hactive, hsetup⟩
  · exact .inl ⟨rfl, if_pos rfl⟩

end Server

namespace Process

def requestRecord (client : UInt32) (length : UInt16) (payload : ℕ → UInt8) : ℕ → UInt8 :=
  Packet.toWire
    { magic := transportMagic, payloadLength := length, clientId := client, payload := payload }

def createRecord (client id : UInt32) : ℕ → UInt8 :=
  requestRecord client 32 (write16 (write16 (write32 (write32 (write16 (write8 (fun _ => 0) 0
    Opcode.createWindow) 2 8) 4 id) 8 rootWindow) 16 10) 18 10)

def selectRoot (client mask : UInt32) : ℕ → UInt8 :=
  requestRecord client 12 (write32 (write32 (write16 (write8 (fun _ => 0) 0
    Opcode.selectInput) 2 3) 4 rootWindow) 8 mask)

def server : Process → Option Server
  | running s => some s
  | _ => none

/-- The request that the record completes. -/
def asked (p : Process) (wire : ℕ → UInt8) : Option Server := p.server.bind fun s => s.asked wire

end Process

end DemonX

end DemonOS
