import DemonOS.Proofs.DemonX.Turns

/-!
# Destroyed windows and released clients

A window that is destroyed gives its record up, and a client that is released those of all its
windows (`releaseClient_place`). The last two records share their bytes with reply handles: a
delivery that succeeds leaves them free where the kernel's handles do (`Marks.delivered`), and one
that fails leaves them free once its client is released (`Marks.released`).
-/

namespace DemonOS

namespace DemonX

namespace Server

variable {s t : Server}

/-! ## Destroyed windows and released clients -/

theorem closePublishedWindow_window (sys : Answers) (s : Server) (i j : ℕ) :
    (s.closePublishedWindow sys i).window j = if j = i then
        { s.window i with surfaceHandle := 0, compositorSurface := 0 }
      else s.window j := by
  have hclose := (announceClosed_quiet sys s i).trans
    (closeSurface_quiet sys _ ((s.announceClosed sys i).window i).surfaceHandle)
  unfold closePublishedWindow
  dsimp only
  rw [window_setWindow, hclose.window, hclose.window]

theorem destroyWindowState_window (sys : Answers) (s : Server) (i j : ℕ) :
    (s.destroyWindowState sys i).window j = if j = i then
        { s.window i with surfaceHandle := 0, compositorSurface := 0, used := 0 }
      else s.window j := by
  have hforget : Quiet s (((s.forgetFocus (s.window i).id).forgetGrabs
      (s.window i).id).forgetSelection (s.window i).id) :=
    (forgetFocus_beside s _).trans ((forgetGrabs_beside _ _).trans (forgetSelection_beside _ _))
  have hremove : ∀ t : Server, Quiet t ((t.removeWindowProperties
      (s.window i).id).removeWindowResources (s.window i).id) := fun t =>
    (removeWindowProperties_beside t _).trans (removeWindowResources_beside _ _)
  unfold destroyWindowState
  dsimp only
  rw [window_setWindow, (hremove _).window, (hremove _).window, closePublishedWindow_window,
    closePublishedWindow_window, if_pos rfl, hforget.window, hforget.window]
  split_ifs <;> rfl

theorem releaseWindows_window (sys : Answers) (s : Server) (client : UInt32) (j : ℕ) :
    (s.releaseWindows sys client).window j =
      if j < windowLimit ∧ (s.window j).used ≠ 0 ∧ (s.window j).ownerClient = client then
        { s.window j with surfaceHandle := 0, compositorSurface := 0, used := 0 }
      else s.window j := by
  unfold releaseWindows
  induction windowLimit generalizing j with
  | zero => simp
  | succ n ih =>
    rw [List.range_succ, List.foldl_append, List.foldl_cons, List.foldl_nil]
    set t := (List.range n).foldl (fun s i => if (s.window i).used ≠ 0
      ∧ (s.window i).ownerClient = client then s.destroyWindowState sys i else s) s with ht
    have hn : t.window n = s.window n := by rw [ih, if_neg (by simp)]
    by_cases hgone : (s.window n).used ≠ 0 ∧ (s.window n).ownerClient = client
    · rw [hn, if_pos hgone, destroyWindowState_window, hn]
      by_cases hj : j = n
      · subst hj
        rw [if_pos rfl, if_pos ⟨by omega, hgone⟩]
      · rw [if_neg hj, ih]
        congr 1
        simp only [show j < n ↔ j < n + 1 by omega]
    · rw [hn, if_neg hgone, ih]
      by_cases hj : j = n
      · subst hj
        rw [if_neg (by simp), if_neg fun h => hgone h.2]
      · congr 1
        simp only [show j < n ↔ j < n + 1 by omega]

theorem Path.place_settling {sys : Answers} (h : Path sys EditKind.settling s t) (i : ℕ) :
    (t.window i).place = (s.window i).place :=
  Path.place sys (h.mono EditKind.settling.plain) i

theorem releaseRoot_window (s : Server) (client : UInt32) (i : ℕ) :
    (s.releaseRoot client).window i = s.window i := by
  unfold releaseRoot
  dsimp only
  split_ifs <;> rfl

def closeClient (s : Server) (sys : Answers) (client : UInt32) : Server :=
  (((((((s.releaseWindows sys client).releasePixmaps sys client).releaseGcs client).releaseCursors
    client).releasePassiveGrabs client).releaseRoot client).releaseGrabs client)

theorem closeClient_place (sys : Answers) (s : Server) (client : UInt32) (j : ℕ) :
    ((s.closeClient sys client).window j).place =
      if j < windowLimit ∧ (s.window j).used ≠ 0 ∧ (s.window j).ownerClient = client then
        { (s.window j).place with used := 0 }
      else (s.window j).place := by
  unfold closeClient
  rw [(releaseGrabs_beside (P := fun _ => True) _ client).window, releaseRoot_window,
    (releasePassiveGrabs_beside (P := fun _ => True) _ client).window,
    (releaseCursors_path sys _ client).place_settling,
    (releaseGcs_beside (P := fun _ => True) _ client).window,
    (releasePixmaps_path sys _ client).place_settling, releaseWindows_window]
  split_ifs <;> rfl

theorem releaseClient_eq (sys : Answers) (s : Server) {client : UInt32} (hclient : client ≠ 0) :
    s.releaseClient sys client = (s.closeClient sys client).releaseReplyHandle sys client := by
  rw [releaseClient, if_neg hclient]
  rfl

/-! ## The records that share their bytes with reply handles -/

def handleByte (handle : UInt64) (k : ℕ) : UInt8 := UInt8.ofNat (handle.toNat / 256 ^ k)

/-- A byte of a client's reply handle says whether the record in a slot is used. -/
def Marks (slot c k : ℕ) : Prop := ∀ (s : Server) (d : ℕ) (handle : UInt64),
  ((s.setReplyHandle d handle).window slot).used =
    if d = c then handleByte handle k else (s.window slot).used

theorem marks_fourteen : Marks 14 0 1 := by
  intro s d handle
  rw [used_fourteen, used_fourteen]
  show LittleEndian.store s.memory (ServerTable.replyHandles.layout.address d) 8 handle.toNat
    fourteenth = _
  rw [address_replyHandles]
  unfold LittleEndian.store fourteenth
  by_cases hd : d = 0
  · subst hd
    rw [if_pos rfl, if_pos (by omega)]
    rfl
  · rw [if_neg (by omega), if_neg hd]

theorem marks_fifteen : Marks 15 7 5 := by
  intro s d handle
  rw [used_fifteen, used_fifteen]
  show LittleEndian.store s.memory (ServerTable.replyHandles.layout.address d) 8 handle.toNat
    fifteenth = _
  rw [address_replyHandles]
  unfold LittleEndian.store fifteenth
  by_cases hd : d = 7
  · subst hd
    rw [if_pos rfl, if_pos (by omega)]
    rfl
  · rw [if_neg (by omega), if_neg hd]

theorem linking_keeps {sys : Answers} {client : UInt32} {good : Bool} {I : Server → Prop}
    (h : Path sys (EditKind.linking client good) s t) (hquiet : ∀ a b, Quiet a b → I a → I b)
    (hlink : ∀ a handle, (handle = 0 ∨ (∃ calls, handle = sys (.connectReply client :: calls))
        ∧ (good = true → handle ≠ failure)) → I a → I (a.setReplyHandle (client.toNat - 1) handle))
    (hs : I s) : I t := by
  refine h.keeps ?_ hs
  intro k a b hk he ha
  cases he with
  | quiet hq => exact hquiet a b hq ha
  | link hhandle =>
    obtain ⟨rfl, hgood⟩ := hk
    refine hlink a _ (hhandle.imp_right fun h => ⟨h.1, fun hg => h.2 (hgood hg)⟩) ha
  | draw _ _ => cases hk
  | adjust _ _ => cases hk
  | surface _ _ _ _ => cases hk
  | pixmap _ => cases hk
  | retire => cases hk
  | release => cases hk

theorem linking_window {sys : Answers} {client : UInt32} {good : Bool}
    (h : Path sys (EditKind.linking client good) s t) {i : ℕ} (hi : i < 14) :
    t.window i = s.window i :=
  linking_keeps (I := fun u => u.window i = s.window i) h (fun _ _ hq ha => (hq.window i).trans ha)
    (fun a handle _ ha => (window_setReplyHandle a hi handle).trans ha) rfl

namespace Marks

variable {sys : Answers} {slot c k : ℕ} {client : UInt32}

theorem elsewhere (hm : Marks slot c k) {good : Bool}
    (h : Path sys (EditKind.linking client good) s t) (hne : client.toNat - 1 ≠ c)
    (hfree : (s.window slot).used = 0) : (t.window slot).used = 0 :=
  linking_keeps (I := fun u => (u.window slot).used = 0) h
    (fun a b hq ha => by rw [hq.window, ha])
    (fun a handle _ ha => by rw [hm, if_neg hne, ha]) hfree

/-- A delivery that succeeds leaves the record free where the kernel's handles do. -/
theorem delivered (hm : Marks slot c k)
    (hsys : ∀ calls, client.toNat - 1 = c → sys (.connectReply client :: calls) ≠ failure →
      handleByte (sys (.connectReply client :: calls)) k = 0)
    (h : Path sys (EditKind.linking client true) s t) (hfree : (s.window slot).used = 0) :
    (t.window slot).used = 0 := by
  refine linking_keeps (I := fun u => (u.window slot).used = 0) h
    (fun a b hq ha => by rw [hq.window, ha]) (fun a handle hhandle ha => ?_) hfree
  rw [hm]
  split_ifs with hc
  · rcases hhandle with rfl | ⟨⟨calls, rfl⟩, hne⟩
    · simp [handleByte]
    · exact hsys calls hc (hne rfl)
  · exact ha

/-- The release of a client leaves the record free, though a delivery to it has marked it. -/
theorem released (hm : Marks slot c k) (hc : c < 8) (hclient : client ≠ 0)
    (hfree : client.toNat - 1 ≠ c → (t.window slot).used = 0) :
    ((t.releaseClient sys client).window slot).used = 0 := by
  have hclose : (t.window slot).used = 0 → ((t.closeClient sys client).window slot).used = 0 := by
    intro hslot
    have hplace := congrArg Place.used (closeClient_place sys t client slot)
    split_ifs at hplace
    · exact hplace
    · exact hplace.trans hslot
  rw [releaseClient_eq sys t hclient, releaseReplyHandle]
  split_ifs with hslot
  · have hlt : 8 < client.toNat := hslot
    exact hclose (hfree (by omega))
  · rw [hm, (closeReply_quiet sys _ _).window]
    split_ifs with heq
    · simp [handleByte]
    · exact hclose (hfree heq)

end Marks

/-- The windows of a client that is released, after a delivery to it or not, are gone. -/
theorem releaseClient_place (sys : Answers) {client : UInt32} (hclient : client ≠ 0)
    (hwindow : ∀ i, i < 14 → t.window i = s.window i) {j : ℕ} (hj : j < 14) :
    ((t.releaseClient sys client).window j).place =
      if (s.window j).used ≠ 0 ∧ (s.window j).ownerClient = client then
        { (s.window j).place with used := 0 }
      else (s.window j).place := by
  have hlimit : j < windowLimit := by simp only [windowLimit]; omega
  rw [← hwindow j hj]
  have hclose := closeClient_place sys t client j
  simp only [hlimit, true_and] at hclose
  rw [releaseClient_eq sys t hclient, releaseReplyHandle, ← hclose]
  split_ifs
  · rfl
  · rw [window_setReplyHandle _ hj, (closeReply_quiet sys _ _).window]

end Server

end DemonX

end DemonOS
