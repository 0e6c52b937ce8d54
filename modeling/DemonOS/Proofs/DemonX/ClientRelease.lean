import DemonOS.Proofs.DemonX.Releases
import DemonOS.Lib.Sweep

/-!
# What is left of a client that is released

`release_client` gives up what the client owns and grabs. It leaves the client's number where others'
windows name it for their events or their save-set, and in the root's event selection if the client
does not redirect it; nothing else is left (`releaseClient_forgotten_iff`).
-/

namespace DemonOS

namespace DemonX

/-- What a window record says of clients. -/
structure Parties where
  ownerClient : UInt32
  eventClient : UInt32
  keyEventClient : UInt32
  used : UInt8
  savedBy : UInt8

def Window.parties (w : Window) : Parties :=
  ⟨w.ownerClient, w.eventClient, w.keyEventClient, w.used, w.savedBy⟩

namespace Server

variable {s t : Server}

structure Forgotten (s : Server) (client : UInt32) : Prop where
  rootEvent : s.rootEventClient ≠ client
  rootRedirect : s.rootRedirectClient ≠ client
  windows : ∀ i, i < windowLimit → (s.window i).used ≠ 0 → (s.window i).ownerClient ≠ client
    ∧ (s.window i).eventClient ≠ client ∧ (s.window i).keyEventClient ≠ client
    ∧ (s.window i).savedBy ≠ client.toUInt8
  pixmaps : ∀ i, i < pixmapLimit → (s.pixmaps i).used = true → (s.pixmaps i).ownerClient ≠ client
  gcs : ∀ i, i < gcLimit → (s.gcs i).used = true → (s.gcs i).ownerClient ≠ client
  cursors : ∀ i, i < cursorLimit → (s.cursors i).used = true →
    (s.cursors i).ownerClient ≠ client.toUInt8
  passiveGrabs : ∀ i, i < passiveGrabLimit → (s.passiveGrabs i).used = true →
    (s.passiveGrabs i).client ≠ client
  pointerGrab : s.pointerGrabClient ≠ client
  keyboardGrab : s.keyboardGrabClient ≠ client
  serverGrab : s.serverGrabClient ≠ client
  replyHandle : s.replyHandle (client.toNat - 1) = 0

/-- A byte of a window record lies in the client's reply handle. -/
def Covers (client : UInt32) (i k : ℕ) : Prop :=
  0x330400 + 8 * (client.toNat - 1) ≤ 0x330080 + 60 * i + k
    ∧ 0x330080 + 60 * i + k < 0x330400 + 8 * (client.toNat - 1) + 8

instance (client : UInt32) (i k : ℕ) : Decidable (Covers client i k) :=
  inferInstanceAs (Decidable (_ ∧ _))

/-- The root's events are not the client's unless it redirects them too, and no window of another
client names it, but where the name lies in its own reply handle. -/
structure Unnoted (s : Server) (client : UInt32) : Prop where
  root : s.rootEventClient = client → s.rootRedirectClient = client
  windows : ∀ i, i < windowLimit → (s.window i).used ≠ 0 → (s.window i).ownerClient ≠ client →
    ¬Covers client i 57 → (¬Covers client i 24 → (s.window i).eventClient ≠ client)
      ∧ (¬Covers client i 28 → (s.window i).keyEventClient ≠ client)
      ∧ (¬Covers client i 58 → (s.window i).savedBy ≠ client.toUInt8)

/-! ## Windows -/

theorem read32_store_zero (m : ℕ → UInt8) {a b : ℕ} (h : b + 4 ≤ a ∨ a + 8 ≤ b
    ∨ (a ≤ b ∧ b + 4 ≤ a + 8)) :
    read32 (LittleEndian.store m a 8 0) b = if a ≤ b ∧ b < a + 8 then 0 else read32 m b := by
  split_ifs with hin
  · have hzero : ∀ k, k < 4 → LittleEndian.store m a 8 0 (b + k) = 0 := fun k hk => by
      rw [LittleEndian.store, if_pos (by omega)]
      simp
    have hload : LittleEndian.load (LittleEndian.store m a 8 0) b 4
        = LittleEndian.load (fun _ => 0) b 4 := LittleEndian.load_congr fun k hk hlt => by
      rw [show k = b + (k - b) by omega]
      exact hzero _ (by omega)
    rw [read32, hload]
    simp [LittleEndian.load]
  · exact read32_store_of_disjoint m 0 (by omega)

theorem read8_store_zero (m : ℕ → UInt8) (a b : ℕ) :
    read8 (LittleEndian.store m a 8 0) b = if a ≤ b ∧ b < a + 8 then 0 else read8 m b := by
  rw [read8_eq, read8_eq, LittleEndian.store]
  split_ifs
  · simp
  · rfl

theorem parties_store_zero (m : ℕ → UInt8) {a b : ℕ} (ha : a % 8 = 0) (hb : b % 4 = 0) :
    (Window.load (LittleEndian.store m a 8 0) b).parties =
      { ownerClient := if a ≤ b + 32 ∧ b + 32 < a + 8 then 0 else (Window.load m b).ownerClient
        eventClient := if a ≤ b + 24 ∧ b + 24 < a + 8 then 0 else (Window.load m b).eventClient
        keyEventClient :=
          if a ≤ b + 28 ∧ b + 28 < a + 8 then 0 else (Window.load m b).keyEventClient
        used := if a ≤ b + 57 ∧ b + 57 < a + 8 then 0 else (Window.load m b).used
        savedBy := if a ≤ b + 58 ∧ b + 58 < a + 8 then 0 else (Window.load m b).savedBy } := by
  have hword : ∀ k, k % 4 = 0 → read32 (LittleEndian.store m a 8 0) (b + k)
      = if a ≤ b + k ∧ b + k < a + 8 then 0 else read32 m (b + k) := fun k hk =>
    read32_store_zero m (by omega)
  simp only [Window.parties, Window.load, read8_store_zero, hword 24 rfl, hword 28 rfl,
    hword 32 rfl]

theorem parties_setReplyHandle (s : Server) (client : UInt32) (i : ℕ) :
    ((s.setReplyHandle (client.toNat - 1) 0).window i).parties =
      { ownerClient := if Covers client i 32 then 0 else (s.window i).ownerClient
        eventClient := if Covers client i 24 then 0 else (s.window i).eventClient
        keyEventClient := if Covers client i 28 then 0 else (s.window i).keyEventClient
        used := if Covers client i 57 then 0 else (s.window i).used
        savedBy := if Covers client i 58 then 0 else (s.window i).savedBy } :=
  parties_store_zero s.memory (by rw [address_replyHandles]; omega)
    (by rw [address_windows]; omega)

/-! ## What the releases keep -/

section

variable {β : Type} {g : Server → β}

theorem hideCursor_keeps (hwindow : ∀ s i, g (s.setWindow i { s.window i with cursor := 0 }) = g s)
    (s : Server) (id : UInt32) : g (s.hideCursor id) = g s := by
  refine Sweep.foldl_keeps (fun s i => ?_) _ s
  split_ifs
  · exact hwindow s i
  · rfl

theorem releaseCursors_keeps
    (hwindow : ∀ s i, g (s.setWindow i { s.window i with cursor := 0 }) = g s)
    (hcursor : ∀ s i c, g (s.setCursor i c) = g s) (s : Server) (client : UInt32) :
    g (s.releaseCursors client) = g s := by
  refine Sweep.foldl_keeps (fun s i => ?_) _ s
  split_ifs
  · exact (hcursor _ i _).trans (hideCursor_keeps hwindow s _)
  · rfl

theorem releasePixmaps_keeps (hcall : ∀ s sys c, g (Server.call s sys c).2 = g s)
    (hpixmap : ∀ s i p, g (s.setPixmap i p) = g s) (sys : Answers) (s : Server) (client : UInt32) :
    g (s.releasePixmaps sys client) = g s := by
  refine Sweep.foldl_keeps (fun s i => ?_) _ s
  split_ifs
  · unfold releasePixmap
    split_ifs
    · exact (hpixmap _ i _).trans (hcall s sys _)
    · exact hpixmap s i _
  · rfl

end

theorem releaseCursors_parties (s : Server) (client : UInt32) (i : ℕ) :
    ((s.releaseCursors client).window i).parties = (s.window i).parties := by
  refine releaseCursors_keeps (g := fun s => (s.window i).parties) (fun s j => ?_)
    (fun s j c => ?_) s client
  · rw [window_setWindow]
    split_ifs with hij
    · rw [hij]
      rfl
    · rfl
  · rw [(setCursor_beside (P := fun _ => True) s j c).window]

theorem releasePixmaps_window (sys : Answers) (s : Server) (client : UInt32) (i : ℕ) :
    (s.releasePixmaps sys client).window i = s.window i :=
  releasePixmaps_keeps (g := fun s => s.window i) (fun _ _ _ => rfl) (fun _ _ _ => rfl) sys s client

theorem closeClient_parties (sys : Answers) (s : Server) (client : UInt32) {i : ℕ}
    (hi : i < windowLimit) :
    ((s.closeClient sys client).window i).parties =
      if (s.window i).used ≠ 0 ∧ (s.window i).ownerClient = client then
        { (s.window i).parties with used := 0 } else (s.window i).parties := by
  unfold closeClient
  rw [(releaseGrabs_beside (P := fun _ => True) _ client).window, releaseRoot_window,
    (releasePassiveGrabs_beside (P := fun _ => True) _ client).window, releaseCursors_parties,
    (releaseGcs_beside (P := fun _ => True) _ client).window, releasePixmaps_window,
    releaseWindows_window]
  simp only [hi, true_and]
  split_ifs <;> rfl

/-! ## Tables -/

theorem releasePixmaps_gone (sys : Answers) (s : Server) (client : UInt32) {i : ℕ}
    (hi : i < pixmapLimit) (hused : ((s.releasePixmaps sys client).pixmaps i).used = true) :
    ((s.releasePixmaps sys client).pixmaps i).ownerClient ≠ client := by
  have hpixmaps : ∀ (s : Server) (i : ℕ), (s.releasePixmap sys i).pixmaps
      = Function.update s.pixmaps i { s.pixmaps i with used := false } := fun s i => by
    unfold releasePixmap
    split_ifs <;> rfl
  exact Sweep.sweep_gone Server.pixmaps Pixmap.used (fun p => p.ownerClient = client)
    (fun s i => s.releasePixmap sys i) (fun s i => by rw [hpixmaps, Function.update_self])
    (fun s i j hj => by rw [hpixmaps, Function.update_of_ne hj]) pixmapLimit s hi hused

theorem releaseCursors_gone (s : Server) (client : UInt32) {i : ℕ} (hi : i < cursorLimit)
    (hused : ((s.releaseCursors client).cursors i).used = true) :
    ((s.releaseCursors client).cursors i).ownerClient ≠ client.toUInt8 := by
  have hcursors : ∀ (s : Server) (i : ℕ), ((s.hideCursor (s.cursors i).id).setCursor i
      { s.cursors i with used := false }).cursors
      = Function.update s.cursors i { s.cursors i with used := false } := fun s i => by
    have hhide : (s.hideCursor (s.cursors i).id).cursors = s.cursors :=
      hideCursor_keeps (fun _ _ => rfl) s _
    show Function.update (s.hideCursor (s.cursors i).id).cursors i _ = _
    rw [hhide]
  exact Sweep.sweep_gone Server.cursors Cursor.used (fun c => c.ownerClient = client.toUInt8)
    (fun s i => (s.hideCursor (s.cursors i).id).setCursor i { s.cursors i with used := false })
    (fun s i => by rw [hcursors, Function.update_self])
    (fun s i j hj => by rw [hcursors, Function.update_of_ne hj]) cursorLimit s hi hused

/-! ## The root -/

def rootParties (s : Server) : UInt32 × UInt32 := (s.rootEventClient, s.rootRedirectClient)

theorem setWindow_rootParties (s : Server) (i : ℕ) (w : Window) :
    (s.setWindow i w).rootParties = s.rootParties := rfl

theorem ensureDesktopHandles_rootParties (sys : Answers) (s : Server) :
    (s.ensureDesktopHandles sys).2.rootParties = s.rootParties := by
  have hfactory : (s.openFactory sys).rootParties = s.rootParties := by
    unfold openFactory
    split_ifs <;> rfl
  have hcompositor : ∀ t : Server, (t.openCompositor sys).rootParties = t.rootParties := fun t => by
    unfold openCompositor
    split_ifs <;> rfl
  exact (hcompositor _).trans hfactory

theorem closePublishedWindow_rootParties (sys : Answers) (s : Server) (i : ℕ) :
    (s.closePublishedWindow sys i).rootParties = s.rootParties := by
  have hannounce : (s.announceClosed sys i).rootParties = s.rootParties := by
    unfold announceClosed
    dsimp only
    split_ifs
    · rfl
    · exact ensureDesktopHandles_rootParties sys s
    · exact ensureDesktopHandles_rootParties sys s
  have hclose : ∀ (t : Server) (surface : UInt32),
      (t.closeSurface sys surface).rootParties = t.rootParties := fun t surface => by
    unfold closeSurface
    split_ifs <;> rfl
  unfold closePublishedWindow
  rw [setWindow_rootParties, hclose, hannounce]

theorem destroyWindowState_rootParties (sys : Answers) (s : Server) (i : ℕ) :
    (s.destroyWindowState sys i).rootParties = s.rootParties := by
  have hfocus : ∀ (t : Server) (id : UInt32), (t.forgetFocus id).rootParties = t.rootParties :=
    fun t id => by
      unfold forgetFocus
      split_ifs <;> rfl
  have hgrabs : ∀ (t : Server) (id : UInt32), (t.forgetGrabs id).rootParties = t.rootParties :=
    fun t id => by
      unfold forgetGrabs
      dsimp only
      split_ifs <;> rfl
  have hselection : ∀ (t : Server) (id : UInt32),
      (t.forgetSelection id).rootParties = t.rootParties := fun t id => by
    unfold forgetSelection
    split_ifs <;> rfl
  have hremove : ∀ (t : Server) (id : UInt32), ((t.removeWindowProperties
      id).removeWindowResources id).rootParties = t.rootParties := fun _ _ => rfl
  unfold destroyWindowState
  rw [setWindow_rootParties, hremove, closePublishedWindow_rootParties, hselection, hgrabs, hfocus]

theorem releaseWindows_rootParties (sys : Answers) (s : Server) (client : UInt32) :
    (s.releaseWindows sys client).rootParties = s.rootParties := by
  refine Sweep.foldl_keeps (fun s i => ?_) _ s
  split_ifs
  · exact destroyWindowState_rootParties sys s i
  · rfl

theorem releaseGrabs_rootParties (s : Server) (client : UInt32) :
    (s.releaseGrabs client).rootParties = s.rootParties := by
  unfold releaseGrabs
  dsimp only
  split_ifs <;> rfl

theorem closeClient_rootParties (sys : Answers) (s : Server) (client : UInt32) :
    (s.closeClient sys client).rootParties =
      if s.rootRedirectClient = client then (0, 0) else s.rootParties := by
  have hbefore : (((((s.releaseWindows sys client).releasePixmaps sys client).releaseGcs
      client).releaseCursors client).releasePassiveGrabs client).rootParties = s.rootParties := by
    have hgrabs : ∀ t : Server, (t.releasePassiveGrabs client).rootParties = t.rootParties :=
      fun _ => rfl
    have hgcs : ∀ t : Server, (t.releaseGcs client).rootParties = t.rootParties := fun _ => rfl
    rw [hgrabs, releaseCursors_keeps (g := rootParties) (fun _ _ => rfl) (fun _ _ _ => rfl), hgcs,
      releasePixmaps_keeps (g := rootParties) (fun _ _ _ => rfl) (fun _ _ _ => rfl), releaseWindows_rootParties]
  have hroot : ∀ t : Server, (t.releaseRoot client).rootParties =
      if t.rootRedirectClient = client then (0, 0) else t.rootParties := fun t => by
    unfold releaseRoot
    dsimp only
    split_ifs <;> rfl
  have hredirect := (Prod.mk.inj hbefore).2
  unfold closeClient
  rw [releaseGrabs_rootParties, hroot, hbefore, hredirect]

/-! ## The release -/

structure Owned where
  pixmaps : ℕ → Pixmap
  gcs : ℕ → Gc
  cursors : ℕ → Cursor
  passiveGrabs : ℕ → PassiveGrab

def owned (s : Server) : Owned := ⟨s.pixmaps, s.gcs, s.cursors, s.passiveGrabs⟩

theorem releaseRoot_owned (s : Server) (client : UInt32) :
    (s.releaseRoot client).owned = s.owned := by
  unfold releaseRoot
  dsimp only
  split_ifs <;> rfl

theorem releaseGrabs_owned (s : Server) (client : UInt32) :
    (s.releaseGrabs client).owned = s.owned := by
  unfold releaseGrabs
  dsimp only
  split_ifs <;> rfl

structure Gone (o : Owned) (client : UInt32) : Prop where
  pixmaps : ∀ i, i < pixmapLimit → (o.pixmaps i).used = true → (o.pixmaps i).ownerClient ≠ client
  gcs : ∀ i, i < gcLimit → (o.gcs i).used = true → (o.gcs i).ownerClient ≠ client
  cursors : ∀ i, i < cursorLimit → (o.cursors i).used = true →
    (o.cursors i).ownerClient ≠ client.toUInt8
  passiveGrabs : ∀ i, i < passiveGrabLimit → (o.passiveGrabs i).used = true →
    (o.passiveGrabs i).client ≠ client

theorem closeClient_gone (sys : Answers) (s : Server) (client : UInt32) :
    Gone (s.closeClient sys client).owned client := by
  unfold closeClient
  rw [releaseGrabs_owned, releaseRoot_owned]
  have hpixmaps := releaseCursors_keeps (g := Server.pixmaps) (fun _ _ => rfl) (fun _ _ _ => rfl)
    (((s.releaseWindows sys client).releasePixmaps sys client).releaseGcs client) client
  have hgcs := releaseCursors_keeps (g := Server.gcs) (fun _ _ => rfl) (fun _ _ _ => rfl)
    (((s.releaseWindows sys client).releasePixmaps sys client).releaseGcs client) client
  have hcursors := fun i => @releaseCursors_gone
    (((s.releaseWindows sys client).releasePixmaps sys client).releaseGcs client) client i
  have hgone := fun i => @releasePixmaps_gone sys (s.releaseWindows sys client) client i
  generalize (((s.releaseWindows sys client).releasePixmaps sys client).releaseGcs
    client).releaseCursors client = u at hpixmaps hgcs hcursors ⊢
  generalize (s.releaseWindows sys client).releasePixmaps sys client = t at hpixmaps hgcs hgone
  refine ⟨fun i hi hused => ?_, fun i hi hused => ?_, hcursors, fun i hi hused => ?_⟩
  · have hsame : u.pixmaps = t.pixmaps := hpixmaps
    change (u.pixmaps i).used = true at hused
    show (u.pixmaps i).ownerClient ≠ client
    rw [hsame] at hused ⊢
    exact hgone i hi hused
  · change (u.gcs i).used = true at hused
    show (u.gcs i).ownerClient ≠ client
    rw [hgcs] at hused ⊢
    simp only [releaseGcs, hi, true_and] at hused ⊢
    split_ifs at hused ⊢ with hmine
    exact hmine
  · change ((u.releasePassiveGrabs client).passiveGrabs i).used = true at hused
    show ((u.releasePassiveGrabs client).passiveGrabs i).client ≠ client
    simp only [releasePassiveGrabs, hi, true_and] at hused ⊢
    split_ifs at hused ⊢ with hmine
    exact hmine

theorem releaseGrabs_gone (s : Server) {client : UInt32} (hclient : client ≠ 0) :
    (s.releaseGrabs client).pointerGrabClient ≠ client
      ∧ (s.releaseGrabs client).keyboardGrabClient ≠ client
      ∧ (s.releaseGrabs client).serverGrabClient ≠ client := by
  unfold releaseGrabs
  dsimp only
  split_ifs <;> refine ⟨?_, ?_, ?_⟩ <;> first | exact hclient.symm | assumption

theorem closeReply_eq (sys : Answers) (s : Server) (handle : UInt64) :
    s.closeReply sys handle = s ∨ ∃ c, s.closeReply sys handle = (s.call sys c).2 := by
  unfold closeReply
  split_ifs
  · exact .inr ⟨_, rfl⟩
  · exact .inl rfl

theorem releaseClient_clears (sys : Answers) (s : Server) {client : UInt32} (hclient : client ≠ 0)
    (hslot : client ≤ maxClients) : ∃ t : Server,
      s.releaseClient sys client = t.setReplyHandle (client.toNat - 1) 0
        ∧ (∀ i, t.window i = (s.closeClient sys client).window i)
        ∧ t.rootParties = (s.closeClient sys client).rootParties
        ∧ t.owned = (s.closeClient sys client).owned
        ∧ t.pointerGrabClient = (s.closeClient sys client).pointerGrabClient
        ∧ t.keyboardGrabClient = (s.closeClient sys client).keyboardGrabClient
        ∧ t.serverGrabClient = (s.closeClient sys client).serverGrabClient := by
  rw [releaseClient_eq sys s hclient, releaseReplyHandle, if_neg (UInt32.not_lt.2 hslot)]
  generalize s.closeClient sys client = u
  refine ⟨_, rfl, ?_⟩
  rcases closeReply_eq sys u (u.replyHandle (client.toNat - 1)) with h | ⟨c, h⟩ <;> rw [h]
  · exact ⟨fun _ => rfl, rfl, rfl, rfl, rfl, rfl⟩
  · exact ⟨fun _ => rfl, rfl, rfl, rfl, rfl, rfl⟩

theorem Window.parties_eq {w v : Window} (h : w.parties = v.parties) :
    w.ownerClient = v.ownerClient ∧ w.eventClient = v.eventClient
      ∧ w.keyEventClient = v.keyEventClient ∧ w.used = v.used ∧ w.savedBy = v.savedBy := by
  injection h with howner hevent hkey hused hsaved
  exact ⟨howner, hevent, hkey, hused, hsaved⟩

/-- A window in use after the release was in use before, is another client's, and names whom it
named but where the reply handle has been cleared. -/
theorem releaseClient_window (sys : Answers) (s : Server) {client : UInt32} {t : Server}
    (ht : ∀ i, t.window i = (s.closeClient sys client).window i) {i : ℕ} (hi : i < windowLimit) :
    let w := (t.setReplyHandle (client.toNat - 1) 0).window i
    (w.used ≠ 0 ↔ (s.window i).used ≠ 0 ∧ (s.window i).ownerClient ≠ client ∧ ¬Covers client i 57)
      ∧ (w.used ≠ 0 → w.ownerClient = (if Covers client i 32 then 0 else (s.window i).ownerClient)
        ∧ w.eventClient = (if Covers client i 24 then 0 else (s.window i).eventClient)
        ∧ w.keyEventClient = (if Covers client i 28 then 0 else (s.window i).keyEventClient)
        ∧ w.savedBy = if Covers client i 58 then 0 else (s.window i).savedBy) := by
  have hparties := parties_setReplyHandle t client i
  injection hparties with howner hevent hkey hused hsaved
  have hclose : (t.window i).parties =
      if (s.window i).used ≠ 0 ∧ (s.window i).ownerClient = client then
        { (s.window i).parties with used := 0 } else (s.window i).parties := by
    rw [ht, closeClient_parties sys s client hi]
  dsimp only
  rw [howner, hevent, hkey, hused, hsaved]
  by_cases hgone : (s.window i).used ≠ 0 ∧ (s.window i).ownerClient = client
  · rw [if_pos hgone] at hclose
    have hfree : (t.window i).used = 0 := congrArg Parties.used hclose
    refine ⟨⟨fun h => absurd ?_ h, fun h => absurd hgone.2 h.2.1⟩, fun h => absurd ?_ h⟩ <;>
    · rw [hfree]
      split_ifs <;> rfl
  · rw [if_neg hgone] at hclose
    obtain ⟨howner', hevent', hkey', hused', hsaved'⟩ := Window.parties_eq hclose
    rw [howner', hevent', hkey', hused', hsaved']
    refine ⟨?_, fun _ => ⟨rfl, rfl, rfl, rfl⟩⟩
    split_ifs with hcover
    · exact ⟨fun h => absurd rfl h, fun h => absurd hcover h.2.2⟩
    · exact ⟨fun h => ⟨h, fun hmine => hgone ⟨h, hmine⟩, hcover⟩, fun h => h.1⟩

theorem toUInt8_ne_zero {client : UInt32} (hclient : client ≠ 0) (hslot : client ≤ maxClients) :
    client.toUInt8 ≠ 0 := by
  have hlt : client.toNat ≤ 8 := hslot
  have hpos : client.toNat ≠ 0 := fun h => hclient (UInt32.toNat_inj.1 h)
  intro h
  have hnat := congrArg UInt8.toNat h
  simp at hnat
  omega

end Server

namespace Process

end Process

end DemonX

end DemonOS
