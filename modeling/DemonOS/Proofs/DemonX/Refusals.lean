import DemonOS.Proofs.DemonX.Untouched

/-!
# The errors of the DemonX server's requests

A handler refuses a request with one packet and leaves the tables alone, or composes no error, or
leaves nothing to send (`Verdict`). A slot that a request has taken is free again once it is refused,
so the tables are compared by the slots that hold something (`SameTables`).
-/

namespace DemonOS

namespace DemonX

namespace Server

def heldWindow (s : Server) (i : ℕ) : Option Window :=
  if (s.window i).used ≠ 0 then some (s.window i) else none

def heldPixmap (s : Server) (i : ℕ) : Option Pixmap :=
  if (s.pixmaps i).used then some (s.pixmaps i) else none

def heldGc (s : Server) (i : ℕ) : Option Gc := if (s.gcs i).used then some (s.gcs i) else none

/-- The windows, pixmaps, graphics contexts, properties, atoms, cursors and grabs are the same. -/
structure SameTables (s t : Server) : Prop where
  windows : ∀ i < windowLimit, t.heldWindow i = s.heldWindow i
  pixmaps : ∀ i < pixmapLimit, t.heldPixmap i = s.heldPixmap i
  gcs : ∀ i < gcLimit, t.heldGc i = s.heldGc i
  rest : t.rest = s.rest

/-- The tables are the same, and no client has been sent anything. -/
structure Untouched (s t : Server) : Prop where
  same : SameTables s t
  assembly : t.assembly = s.assembly
  calls : ∃ new, t.calls = new ++ s.calls ∧ ∀ c ∈ new, c.sends = false

theorem Leaves.same {s t : Server} (h : Leaves s t) : SameTables s t where
  windows i _ := by rw [heldWindow, heldWindow, h.window]
  pixmaps i _ := by rw [heldPixmap, heldPixmap, h.pixmaps]
  gcs i _ := by rw [heldGc, heldGc, h.gcs]
  rest := h.rest

theorem Leaves.untouched {s t : Server} (h : Leaves s t) : Untouched s t :=
  ⟨h.same, h.assembly, h.calls⟩

theorem Untouched.refl (s : Server) : Untouched s s := (Leaves.refl s).untouched

theorem Untouched.incoming {s t : Server} (h : Untouched s t) : t.incoming = s.incoming :=
  congrArg Assembly.incoming h.assembly

/-- What a handler comes to: it refuses the request, or tells something that is no error, or leaves
no packet. -/
inductive Verdict (s : Server) : Bool × Server → Prop
  | refused {t : Server} (code : UInt8) (badValue : UInt32) (h : Untouched s t) :
      Verdict s (t.refuse code (s.payload 0) badValue)
  | told {told : Bool} {t : Server} (h : t.outgoing.flags ≠ flagError) : Verdict s (told, t)
  | silent {t : Server} (h : t.outgoing = s.outgoing) : Verdict s (false, t)

variable {s : Server}

theorem refuse_verdict {t : Server} {opcode code : UInt8} {badValue : UInt32}
    (hop : s.payload 0 = opcode) (h : Untouched s t) :
    Verdict s (t.refuse code opcode badValue) := hop ▸ .refused code badValue h

theorem refused (s : Server) {opcode code : UInt8} {badValue : UInt32}
    (hop : s.payload 0 = opcode) : Verdict s (s.refuse code opcode badValue) :=
  refuse_verdict hop (.refl s)

theorem event_told {told : Bool} (t : Server) (client : UInt32) (payload : ℕ → UInt8) :
    Verdict s (told, t.event client payload) := .told (show flagEvent ≠ flagError by decide)

theorem reply_told {told : Bool} (t : Server) (length : ℕ) (payload : ℕ → UInt8) :
    Verdict s (told, t.reply length payload) := .told (show flagReply ≠ flagError by decide)

theorem propertyNotify_verdict {t : Server} (h : t.outgoing = s.outgoing)
    (windowId atom : UInt32) (state : UInt8) :
    Verdict s (t.propertyNotify windowId atom state) := by
  unfold propertyNotify
  rcases t.propertyListener windowId with _ | destination
  · exact .silent h
  · exact event_told t _ _

variable (sys : Answers) (id : UInt32)

/-! ## Windows -/

theorem selectInputRoot_verdict (hop : s.payload 0 = Opcode.selectInput) :
    Verdict s (s.selectInputRoot id) := by
  unfold selectInputRoot
  dsimp only
  split_ifs
  · exact refused s hop
  all_goals exact .silent rfl

theorem setWindow_outgoing (s : Server) (i : ℕ) (w : Window) :
    (s.setWindow i w).outgoing = s.outgoing := rfl

theorem setCursor_outgoing (s : Server) (i : ℕ) (c : Cursor) :
    (s.setCursor i c).outgoing = s.outgoing := rfl

theorem shareSurface_outgoing (s : Server) (i : ℕ) :
    (s.shareSurface sys i).2.outgoing = s.outgoing := by
  unfold shareSurface
  dsimp only
  split_ifs <;> rfl

theorem announceWindow_outgoing (s : Server) (i : ℕ) :
    (s.announceWindow sys i).2.outgoing = s.outgoing := by
  have hensure := (ensureDesktopHandles_leaves sys s).outgoing
  have hshare := (shareSurface_outgoing sys (s.ensureDesktopHandles sys).2 i).trans hensure
  unfold announceWindow
  dsimp only
  split_ifs
  · exact hensure
  · exact hshare
  · exact (sendCompositor_leaves sys _ _).outgoing.trans hshare

theorem publishWindow_outgoing (s : Server) (i : ℕ) :
    (s.publishWindow sys i).2.outgoing = s.outgoing := by
  have hcreate := createWindowSurface_outgoing sys s i
  unfold publishWindow
  dsimp only
  split_ifs
  · exact hcreate
  · exact (announceWindow_outgoing sys _ i).trans hcreate

theorem mapWindow_verdict (i : ℕ) : Verdict s (s.mapWindow sys i) := by
  have hcreate := createWindowSurface_outgoing sys s i
  have hclear := ((clearBackground_leaves sys (s.createWindowSurface sys i).2 i 0 0 0 0).outgoing.trans
    (createWindowSurface_outgoing sys _ i)).trans hcreate
  unfold mapWindow
  dsimp only
  split_ifs
  · exact event_told s _ _
  · exact event_told _ _ _
  · refine .silent ((setWindow_outgoing _ i _).trans ?_)
    exact (publishWindow_outgoing sys _ i).trans hclear
  · exact event_told _ _ _
  · refine .silent ((setWindow_outgoing _ i _).trans ?_)
    exact (publishWindow_outgoing sys _ i).trans hcreate

theorem configureWindow_verdict {i : ℕ} {r : Bool × Server}
    (hop : s.payload 0 = Opcode.configureWindow) (h : s.configureWindow sys i = some r) :
    Verdict s r := by
  unfold configureWindow at h
  dsimp only at h
  split_ifs at h
  · obtain rfl := Option.some.inj h
    exact refused s hop
  · obtain rfl := Option.some.inj h
    exact event_told s _ _
  · obtain ⟨t, ht, rfl⟩ := Option.map_eq_some_iff.1 h
    split_ifs
    · exact event_told t _ _
    · exact .silent (movePublished_leaves sys ht).outgoing

theorem unmapWindow_verdict (i : ℕ) : Verdict s (s.unmapWindow i) := by
  unfold unmapWindow
  dsimp only
  split_ifs
  · exact event_told _ _ _
  · exact event_told _ _ _
  · exact .silent rfl

theorem reparentWindow_verdict {i : ℕ} {r : Bool × Server}
    (hop : s.payload 0 = Opcode.reparentWindow) (h : s.reparentWindow sys i = some r) :
    Verdict s r := by
  unfold reparentWindow at h
  dsimp only at h
  split_ifs at h
  · obtain rfl := Option.some.inj h
    exact refused s hop
  · obtain ⟨t, ht, rfl⟩ := Option.map_eq_some_iff.1 h
    split_ifs
    · exact event_told t _ _
    · exact .silent (movePublished_leaves sys ht).outgoing

theorem changeWindowAttributes_verdict (hop : s.payload 0 = Opcode.changeWindowAttributes) (i : ℕ) :
    Verdict s (s.changeWindowAttributes i id) := by
  unfold changeWindowAttributes
  dsimp only
  split_ifs
  · exact refused s hop
  · exact .silent rfl
  · exact .silent rfl
  · exact .silent rfl
  · exact refused s hop

theorem refuseSurface_verdict (hop : s.payload 0 = Opcode.attachSurface) {t : Server}
    (h : Leaves s t) (supplied : UInt32) : Verdict s (t.refuseSurface sys supplied id) :=
  refuse_verdict hop (h.trans (closeSurface_leaves sys t supplied)).untouched

theorem attachSurface_verdict (hop : s.payload 0 = Opcode.attachSurface) :
    Verdict s (s.attachSurface sys id) := by
  have hrefuse := fun t (h : Leaves s t) => refuseSurface_verdict sys id hop h (s.field32 8)
  have hwidth := call_leaves sys s (c := .handleQuery (s.field32 8) 0) rfl
  have hheight := hwidth.trans (call_leaves sys _ (c := .handleQuery (s.field32 8) 1) rfl)
  unfold attachSurface
  rcases s.findWindow id with _ | i
  · exact hrefuse s (.refl s)
  dsimp only
  split_ifs
  · exact hrefuse s (.refl s)
  · exact hrefuse _ hwidth
  · exact hrefuse _ hheight
  · exact .silent ((closeSurface_leaves sys _ _).outgoing.trans hheight.outgoing)

theorem changeSaveSet_verdict (hop : s.payload 0 = Opcode.changeSaveSet) :
    Verdict s (s.changeSaveSet id) := by
  unfold changeSaveSet
  rcases s.findWindow id with _ | i
  · exact refused s hop
  dsimp only
  split_ifs
  · exact refused s hop
  all_goals exact .silent rfl

theorem getWindowAttributes_verdict (hop : s.payload 0 = Opcode.getWindowAttributes)
    (window : Option ℕ) : Verdict s (s.getWindowAttributes window id) := by
  rcases window with _ | i
  · exact refused s hop
  · exact reply_told s _ _

theorem queryTree_verdict (hop : s.payload 0 = Opcode.queryTree) (window : Option ℕ) :
    Verdict s (s.queryTree window id) := by
  unfold queryTree
  dsimp only
  split_ifs
  · exact refused s hop
  · exact refused s hop
  all_goals exact reply_told s _ _

/-! ## The end of windows and clients -/

theorem closePublishedWindow_outgoing (s : Server) (i : ℕ) :
    (s.closePublishedWindow sys i).outgoing = s.outgoing := by
  unfold closePublishedWindow
  rw [setWindow_outgoing]
  exact ((announceClosed_leaves sys s i).trans (closeSurface_leaves sys _ _)).outgoing

theorem destroyWindowState_outgoing (s : Server) (i : ℕ) :
    (s.destroyWindowState sys i).outgoing = s.outgoing := by
  have hforget : ∀ (t : Server) id,
      (((t.forgetFocus id).forgetGrabs id).forgetSelection id).outgoing = t.outgoing :=
    fun t id => by
      unfold forgetSelection forgetGrabs forgetFocus
      dsimp only
      split_ifs <;> rfl
  have hremove : ∀ (t : Server) id,
      ((t.removeWindowProperties id).removeWindowResources id).outgoing = t.outgoing :=
    fun _ _ => rfl
  unfold destroyWindowState
  rw [setWindow_outgoing, hremove, closePublishedWindow_outgoing, hforget]

theorem foldl_outgoing {α : Type} {f : Server → α → Server}
    (hf : ∀ s a, (f s a).outgoing = s.outgoing) (l : List α) (s : Server) :
    (l.foldl f s).outgoing = s.outgoing := by
  induction l generalizing s with
  | nil => rfl
  | cons a l ih =>
    rw [List.foldl_cons, ih]
    exact hf s a

theorem hideCursor_outgoing (s : Server) (id : UInt32) :
    (s.hideCursor id).outgoing = s.outgoing :=
  foldl_outgoing (fun s i => by split_ifs <;> rfl) _ s

theorem releaseWindows_outgoing (s : Server) (client : UInt32) :
    (s.releaseWindows sys client).outgoing = s.outgoing :=
  foldl_outgoing (fun s i => by
    split_ifs
    · exact destroyWindowState_outgoing sys s i
    · rfl) _ s

theorem releasePixmaps_outgoing (s : Server) (client : UInt32) :
    (s.releasePixmaps sys client).outgoing = s.outgoing :=
  foldl_outgoing (fun s i => by
    unfold releasePixmap
    split_ifs <;> rfl) _ s

theorem releaseCursors_outgoing (s : Server) (client : UInt32) :
    (s.releaseCursors client).outgoing = s.outgoing :=
  foldl_outgoing (fun s i => by
    split_ifs
    · rw [setCursor_outgoing, hideCursor_outgoing]
    · rfl) _ s

theorem releaseClient_outgoing (s : Server) (client : UInt32) :
    (s.releaseClient sys client).outgoing = s.outgoing := by
  have hgrabs : ∀ t : Server, ((t.releaseRoot client).releaseGrabs client).outgoing = t.outgoing :=
    fun t => by
      unfold releaseGrabs releaseRoot
      dsimp only
      split_ifs <;> rfl
  have hgcs : ∀ t : Server, (t.releaseGcs client).outgoing = t.outgoing := fun _ => rfl
  have hpassive : ∀ t : Server, (t.releasePassiveGrabs client).outgoing = t.outgoing := fun _ => rfl
  have hreply : ∀ t : Server, (t.releaseReplyHandle sys client).outgoing = t.outgoing := fun t => by
    unfold releaseReplyHandle closeReply
    split_ifs <;> rfl
  unfold releaseClient
  split_ifs
  · rfl
  · rw [hreply, hgrabs, hpassive, releaseCursors_outgoing, hgcs, releasePixmaps_outgoing,
      releaseWindows_outgoing]

theorem killClient_verdict (hop : s.payload 0 = Opcode.killClient) :
    Verdict s (s.killClient sys id) := by
  unfold killClient
  split_ifs
  · exact refused s hop
  · exact .silent (releaseClient_outgoing sys s _)

/-! ## The focus -/

theorem focusNotify_verdict {t : Server} (h : t.outgoing = s.outgoing
    ∨ t.outgoing.flags ≠ flagError) (window : Option ℕ) (type : UInt8) :
    Verdict s (t.focusNotify window type) := by
  have hstays : Verdict s (false, t) := h.elim .silent .told
  rcases window with _ | i
  · exact hstays
  unfold focusNotify
  dsimp only
  split_ifs
  · exact hstays
  · exact event_told t _ _

theorem forEach_outgoing {α : Type} {f : α → Server → Bool × Server}
    (hf : ∀ a s, (f a s).2.outgoing = s.outgoing) :
    ∀ (l : List α) (s : Server), (forEach f l s).2.outgoing = s.outgoing
  | [], _ => rfl
  | a :: l, s => by
    unfold forEach
    split_ifs
    · rw [forEach_outgoing hf l, hf]
    · exact hf a s

theorem deliverRecord_outgoing (client : UInt32) (record : Packet) (s : Server) :
    (deliverRecord sys client record s).2.outgoing = s.outgoing := by
  unfold deliverRecord
  dsimp only
  split_ifs <;> rfl

theorem deliver_outgoing (s : Server) (client : UInt32) :
    (s.deliver sys client).2.outgoing = s.outgoing := by
  unfold deliver
  dsimp only
  split_ifs
  · rfl
  · rw [forEach_outgoing (deliverRecord_outgoing sys client)]
    rfl
  · rfl
  · rw [forEach_outgoing (deliverRecord_outgoing sys client)]

theorem sendOutgoing_outgoing (s : Server) : (s.sendOutgoing sys).outgoing = s.outgoing := by
  unfold sendOutgoing
  dsimp only
  split_ifs
  · rfl
  · exact deliver_outgoing sys s _
  · rw [releaseClient_outgoing, deliver_outgoing]

theorem answer_focusNotify (window : Option ℕ) (type : UInt8) :
    (answer sys (s.focusNotify window type)).outgoing = s.outgoing
      ∨ (answer sys (s.focusNotify window type)).outgoing.flags ≠ flagError := by
  rcases window with _ | i
  · exact .inl rfl
  unfold focusNotify
  dsimp only
  split_ifs
  · exact .inl rfl
  · right
    rw [answer, if_pos rfl, sendOutgoing_outgoing]
    exact (by decide : flagEvent ≠ flagError)

theorem setInputFocus_verdict (hop : s.payload 0 = Opcode.setInputFocus) (window : Option ℕ) :
    Verdict s (s.setInputFocus sys window id) := by
  unfold setInputFocus
  rcases window with _ | i
  · exact refused s hop
  dsimp only
  split_ifs
  · exact refused s hop
  · exact .silent rfl
  set t := answer sys (s.focusNotify (s.findWindow s.focusedWindow) 10)
  have ht := answer_focusNotify sys (s := s) (s.findWindow s.focusedWindow) 10
  have hfocus := ensureDesktopHandles_leaves sys { t with focusedWindow := (t.window i).id }
  unfold focusOn
  dsimp only
  split_ifs
  · refine focusNotify_verdict ?_ _ _
    rw [(sendCompositor_leaves sys _ _).outgoing, hfocus.outgoing]
    exact ht
  · refine focusNotify_verdict ?_ _ _
    rw [hfocus.outgoing]
    exact ht

/-! ## The pointer, the grabs and the selection -/

theorem grabServer_verdict (hop : s.payload 0 = Opcode.grabServer) : Verdict s s.grabServer := by
  unfold grabServer
  dsimp only
  split_ifs
  · exact .silent rfl
  · exact refused s hop

theorem ungrabServer_verdict : Verdict s s.ungrabServer := by
  unfold ungrabServer
  split_ifs <;> exact .silent rfl

theorem warpPointer_verdict (hop : s.payload 0 = Opcode.warpPointer) :
    Verdict s (s.warpPointer sys id) := by
  have hensure := ensureDesktopHandles_leaves sys s
  unfold warpPointer
  dsimp only
  split
  · exact refused s hop
  unfold sendWarp
  dsimp only
  split_ifs
  · exact refuse_verdict hop hensure.untouched
  · exact .silent (hensure.trans (sendCompositor_leaves sys _ _)).outgoing
  · exact refuse_verdict hop (hensure.trans (sendCompositor_leaves sys _ _)).untouched

theorem setSelectionOwner_verdict (hop : s.payload 0 = Opcode.setSelectionOwner) :
    Verdict s (s.setSelectionOwner id) := by
  unfold setSelectionOwner
  dsimp only
  split_ifs
  · exact refused s hop
  · exact .silent rfl

theorem passiveGrab_verdict {opcode : UInt8} (hop : s.payload 0 = opcode) :
    Verdict s (s.passiveGrab opcode id) := by
  unfold passiveGrab
  by_cases hwindow : s.findWindow id = none ∧ id ≠ rootWindow
  · rw [if_pos hwindow]
    exact refused s hop
  rw [if_neg hwindow]
  by_cases hungrab : opcode = Opcode.ungrabKey ∨ opcode = Opcode.ungrabButton
  · rw [if_pos hungrab]
    exact .silent rfl
  rw [if_neg hungrab]
  rcases s.passiveSlot _ _ _ _ with _ | i
  · exact refused s hop
  dsimp only
  split_ifs
  · exact .silent rfl
  · exact refused s hop
  all_goals exact .silent rfl

theorem activeUngrab_verdict (opcode : UInt8) : Verdict s (s.activeUngrab opcode) := by
  unfold activeUngrab
  dsimp only
  split_ifs <;> exact .silent rfl

theorem createFontCursor_verdict (hop : s.payload 0 = Opcode.createFontCursor) :
    Verdict s (s.createFontCursor id) := by
  unfold createFontCursor
  rcases halloc : s.allocateCursor id s.incoming.clientId with _ | ⟨i, t⟩
  · exact refused s hop
  unfold allocateCursor at halloc
  split_ifs at halloc
  obtain ⟨j, -, hj⟩ := Option.map_eq_some_iff.1 halloc
  obtain ⟨rfl, rfl⟩ := Prod.mk.inj hj
  exact .silent rfl

theorem defineCursor_verdict (hop : s.payload 0 = Opcode.defineCursor) :
    Verdict s (s.defineCursor id) := by
  unfold defineCursor
  dsimp only
  split
  · exact refused s hop
  rcases s.findWindow id with _ | i
  · exact .silent rfl
  · exact .silent rfl

theorem freeCursor_verdict (hop : s.payload 0 = Opcode.freeCursor) :
    Verdict s (s.freeCursor id) := by
  unfold freeCursor
  rcases s.findCursor id with _ | i
  · exact refused s hop
  dsimp only
  split_ifs
  · exact refused s hop
  · exact .silent ((setCursor_outgoing _ i _).trans (hideCursor_outgoing s id))

/-! ## Atoms and properties -/

theorem makeAtom_cases (s : Server) (name : ℕ → UInt8) (length : ℕ) (onlyIfExists : Bool) :
    (s.makeAtom name length onlyIfExists).2 = s ∨ (s.makeAtom name length onlyIfExists).1 ≠ 0 := by
  unfold makeAtom
  dsimp only
  split
  · exact .inl rfl
  split
  · exact .inl rfl
  split
  · exact .inl rfl
  rename_i i hfree
  right
  have hi : i < 64 := (Table.firstIndex_eq_some.1 hfree).1
  intro h
  have hid := congrArg UInt32.toNat h
  simp [dynamicAtomBase] at hid
  omega

theorem internAtom_verdict (hop : s.payload 0 = Opcode.internAtom) : Verdict s s.internAtom := by
  unfold internAtom
  dsimp only
  split_ifs with hbad hnone
  · exact refused s hop
  · rw [(makeAtom_cases s _ _ _).resolve_right (not_not.2 hnone.1)]
    exact refused s hop
  · exact reply_told _ _ _

theorem getAtomName_verdict (hop : s.payload 0 = Opcode.getAtomName) :
    Verdict s (s.getAtomName id) := by
  unfold getAtomName
  rcases s.findAtom id with _ | i
  · exact refused s hop
  dsimp only
  split_ifs
  · exact refused s hop
  · exact reply_told s _ _

theorem deleteProperty_verdict : Verdict s (s.deleteProperty id) := by
  refine propertyNotify_verdict ?_ _ _ _
  unfold dropProperty
  rcases s.findProperty id (s.field32 8) with _ | i <;> rfl

theorem getProperty_verdict (hop : s.payload 0 = Opcode.getProperty) :
    Verdict s (s.getProperty id) := by
  unfold getProperty
  split_ifs
  · exact refused s hop
  rcases s.findProperty id (s.field32 8) with _ | i
  · exact reply_told s _ _
  dsimp only
  split_ifs
  · exact reply_told s _ _
  · exact refused s hop
  · exact .told (by decide : flagReply ≠ flagError)
  · exact .told (by decide : flagReply ≠ flagError)

theorem listProperties_verdict (hop : s.payload 0 = Opcode.listProperties) :
    Verdict s (s.listProperties id) := by
  unfold listProperties
  dsimp only
  split_ifs
  · exact refused s hop
  · exact refused s hop
  · exact reply_told s _ _

theorem sendEvent_verdict (hop : s.payload 0 = Opcode.sendEvent) : Verdict s (s.sendEvent id) := by
  unfold sendEvent
  rcases s.findWindow id with _ | i
  · exact refused s hop
  dsimp only
  split_ifs
  · exact refused s hop
  · exact event_told s _ _

/-! ## Pixmaps and graphics contexts -/

theorem pixmaps_setPixmap (s : Server) (i j : ℕ) (p : Pixmap) :
    (s.setPixmap i p).pixmaps j = if j = i then p else s.pixmaps j :=
  Function.update_apply s.pixmaps i p j

theorem gcs_setGc (s : Server) (i j : ℕ) (gc : Gc) :
    (s.setGc i gc).gcs j = if j = i then gc else s.gcs j := Function.update_apply s.gcs i gc j

section

variable {t : Server} {i : ℕ}

theorem setPixmap_untouched {p q : Pixmap} (hfree : (s.pixmaps i).used = false)
    (hq : q.used = false) (h : Leaves (s.setPixmap i p) t) : Untouched s (t.setPixmap i q) where
  same :=
    { windows := h.same.windows, gcs := h.same.gcs, rest := h.rest
      pixmaps := fun j _ => by
        rw [heldPixmap, heldPixmap, pixmaps_setPixmap]
        by_cases hj : j = i
        · rw [if_pos hj, if_neg (by simp [hq]), hj, if_neg (by simp [hfree])]
        · rw [if_neg hj, h.pixmaps, pixmaps_setPixmap, if_neg hj] }
  assembly := h.assembly
  calls := h.calls

theorem setGc_untouched {gc gc' : Gc} (hfree : (s.gcs i).used = false) (h : gc'.used = false) :
    Untouched s ((s.setGc i gc).setGc i gc') where
  same :=
    { windows := fun _ _ => rfl, pixmaps := fun _ _ => rfl, rest := rfl
      gcs := fun j _ => by
        rw [heldGc, heldGc, gcs_setGc, gcs_setGc]
        by_cases hj : j = i
        · rw [if_pos hj, if_neg (by simp [h]), hj, if_neg (by simp [hfree])]
        · rw [if_neg hj, if_neg hj] }
  assembly := rfl
  calls := (Leaves.refl s).calls

theorem setWindow_untouched {w w' : Window} (hfree : (s.window i).used = 0) (h : w'.used = 0) :
    Untouched s ((s.setWindow i w).setWindow i w') where
  same :=
    { gcs := fun _ _ => rfl, pixmaps := fun _ _ => rfl, rest := rfl
      windows := fun j _ => by
        rw [heldWindow, heldWindow, window_setWindow, window_setWindow]
        by_cases hj : j = i
        · rw [if_pos hj, if_neg (by simp [h]), hj, if_neg (by simp [hfree])]
        · rw [if_neg hj, if_neg hj] }
  assembly := rfl
  calls := (Leaves.refl s).calls

end

theorem makePixmap_verdict (hop : s.payload 0 = Opcode.createPixmap) {i : ℕ} {p : Pixmap}
    (hfree : (s.pixmaps i).used = false) (width height : UInt16) (depth : UInt8) :
    Verdict s ((s.setPixmap i p).makePixmap sys i id width height depth) := by
  have hensure := ensureDesktopHandles_leaves sys (s.setPixmap i p)
  unfold makePixmap
  dsimp only
  set t := ((s.setPixmap i p).ensureDesktopHandles sys).2
  have hcall := call_leaves sys t (c := .surfaceCreate t.surfaceFactoryHandle width.toNat
    height.toNat) rfl
  split_ifs
  · exact refuse_verdict hop (setPixmap_untouched hfree rfl hensure)
  · exact refuse_verdict hop (setPixmap_untouched hfree rfl (hensure.trans hcall))
  · exact .silent (hensure.trans hcall).outgoing

theorem createPixmap_verdict (hop : s.payload 0 = Opcode.createPixmap) :
    Verdict s (s.createPixmap sys id) := by
  unfold createPixmap
  dsimp only
  split
  · exact refused s hop
  rcases halloc : s.allocatePixmap id s.incoming.clientId with _ | ⟨i, t⟩
  · exact refused s hop
  unfold allocatePixmap at halloc
  split_ifs at halloc
  obtain ⟨j, hj, heq⟩ := Option.map_eq_some_iff.1 halloc
  obtain ⟨rfl, rfl⟩ := Prod.mk.inj heq
  refine makePixmap_verdict sys id hop ?_ _ _ _
  simpa using (Table.firstIndex_eq_some.1 hj).2.1

theorem freePixmap_verdict (hop : s.payload 0 = Opcode.freePixmap) :
    Verdict s (s.freePixmap sys id) := by
  unfold freePixmap
  rcases s.findPixmap id with _ | i
  · exact refused s hop
  dsimp only
  split_ifs
  · exact refused s hop
  · exact .silent rfl

theorem createGc_verdict (hop : s.payload 0 = Opcode.createGc) : Verdict s (s.createGc id) := by
  unfold createGc
  dsimp only
  split
  · exact refused s hop
  rcases halloc : s.allocateGc id s.incoming.clientId with _ | ⟨i, t⟩
  · exact refused s hop
  unfold allocateGc at halloc
  split_ifs at halloc
  obtain ⟨j, hj, heq⟩ := Option.map_eq_some_iff.1 halloc
  obtain ⟨rfl, rfl⟩ := Prod.mk.inj heq
  dsimp only
  split
  · refine refuse_verdict hop (setGc_untouched ?_ rfl)
    simpa using (Table.firstIndex_eq_some.1 hj).2.1
  · exact .silent rfl

theorem changeGc_verdict (hop : s.payload 0 = Opcode.changeGc) : Verdict s (s.changeGc id) := by
  unfold changeGc
  rcases s.findGc id with _ | i
  · exact refused s hop
  dsimp only
  split_ifs
  · exact refused s hop
  · exact .silent rfl
  · exact .silent rfl
  · exact refused s hop

theorem freeGc_verdict (hop : s.payload 0 = Opcode.freeGc) : Verdict s (s.freeGc id) := by
  unfold freeGc
  rcases s.findGc id with _ | i
  · exact refused s hop
  dsimp only
  split_ifs
  · exact refused s hop
  · exact .silent rfl

end Server

end DemonX

end DemonOS
