import DemonOS.Lib.Machine
import DemonOS.Proofs.Compositor.Sends

/-!
# The focused window is one that is shown

After a message or an input event the focus is 0 or the id of a window that is shown. Every branch
of the event loop that moves the focus takes it to a window of the current workspace, or takes the
workspace along, but the FOCUS message: it raises the window it names without regard to the
workspace. So a run keeps the focus on what is shown just as long as no FOCUS names a window of
another workspace (`focus_shown_iff`).
-/

namespace DemonOS

namespace Compositor

variable {a : Answers} {i id slot : ℕ} {s : Desktop} {table : WindowTable} {w : Window}

def Window.face (w : Window) : Bool × ℕ × Bool × ℕ := (w.inUse, w.id, w.minimized, w.workspace)

def Distinct (table : WindowTable) : Prop :=
  ∀ i < windowLimit, ∀ j < windowLimit, (table i).inUse = true → (table j).inUse = true →
    (table i).id = (table j).id → i = j

theorem findSlot_eq_some (h : findSlot table id = some i) :
    i < windowLimit ∧ (table i).inUse = true ∧ (table i).id = id := by
  obtain ⟨hlt, hp, -⟩ := Table.firstIndex_eq_some.1 h
  rw [Bool.and_eq_true, beq_iff_eq] at hp
  exact ⟨hlt, hp.1, hp.2⟩

theorem findSlot_eq_none :
    findSlot table id = none
      ↔ ∀ i < windowLimit, (table i).inUse = true → (table i).id ≠ id := by
  unfold findSlot
  rw [Table.firstIndex_eq_none]
  simp

theorem findFreeSlot_eq_some (h : findFreeSlot table = some i) :
    i < windowLimit ∧ (table i).inUse = false := by
  obtain ⟨hlt, hp, -⟩ := Table.firstIndex_eq_some.1 h
  exact ⟨hlt, by simpa using hp⟩

theorem topmost_eq_some {passes : Window → Bool}
    (h : topmost table passes = some i) : i < windowLimit ∧ passes (table i) = true :=
  let ⟨hlt, hp, _⟩ := Greatest.greatest_spec h
  ⟨hlt, hp⟩

theorem Window.shown_iff {workspace : ℕ} :
    w.shown workspace = true ↔ w.inUse = true ∧ w.minimized = false ∧ w.workspace = workspace := by
  simp [Window.shown, and_assoc]

namespace Desktop

def FocusShown (s : Desktop) : Prop :=
  s.focusedWindow = 0 ∨ ∃ i < windowLimit,
    ((s.table i).inUse = true ∧ (s.table i).id = s.focusedWindow ∧ (s.table i).minimized = false
      ∧ (s.table i).workspace = s.currentWorkspace)
    ∧ ∀ j < windowLimit, (s.table j).inUse = true → (s.table j).id = s.focusedWindow → j = i

def FocusesShown (s : Desktop) : Input → Prop
  | .message m => m.opcode = opcodeFocus → ∀ slot, findSlot s.table m.windowId.toNat = some slot →
      m.windowId ≠ 0 → (s.table slot).workspace = s.currentWorkspace
  | .event _ => True

structure Focused (s : Desktop) : Prop where
  distinct : Distinct s.table
  shown : s.FocusShown

/-! ## Operations -/

structure SameFocus (s s' : Desktop) : Prop where
  face : ∀ i, (s'.table i).face = (s.table i).face
  focused : s'.focusedWindow = s.focusedWindow
  workspace : s'.currentWorkspace = s.currentWorkspace

theorem SameFocus.refl (s : Desktop) : s.SameFocus s := ⟨fun _ => rfl, rfl, rfl⟩

theorem SameFocus.trans {s s' s'' : Desktop} (h : s.SameFocus s') (h' : s'.SameFocus s'') :
    s.SameFocus s'' :=
  ⟨fun i => (h'.face i).trans (h.face i), h'.focused.trans h.focused,
    h'.workspace.trans h.workspace⟩

theorem face_update
    (h : w.face = (table slot).face) (i : ℕ) :
    (Function.update table slot w i).face = (table i).face := by
  by_cases hi : i = slot
  · subst hi
    rw [Function.update_self, h]
  · rw [Function.update_of_ne hi]

theorem SameFocus.setWindow
    (h : w.face = (s.table slot).face) : s.SameFocus (s.setWindow slot w) :=
  ⟨face_update h, rfl, rfl⟩

theorem distinct_congr {t t' : WindowTable}
    (h : ∀ i < windowLimit, (t' i).inUse = true → (t i).inUse = true ∧ (t' i).id = (t i).id)
    (ht : Distinct t) : Distinct t' := by
  intro i hi j hj hui huj hid
  obtain ⟨hui, hii⟩ := h i hi hui
  obtain ⟨huj, hij⟩ := h j hj huj
  exact ht i hi j hj hui huj (by rw [← hii, hid, hij])

theorem SameFocus.focused_of {s s' : Desktop} (h : s.SameFocus s') (hs : s.Focused) :
    s'.Focused := by
  have hface : ∀ i, (s'.table i).inUse = (s.table i).inUse ∧ (s'.table i).id = (s.table i).id
      ∧ (s'.table i).minimized = (s.table i).minimized
      ∧ (s'.table i).workspace = (s.table i).workspace := fun i => by
    simpa [Window.face] using h.face i
  refine ⟨distinct_congr (fun i _ hu => ⟨(hface i).1 ▸ hu, (hface i).2.1⟩) hs.distinct, ?_⟩
  have hshown := hs.shown
  unfold FocusShown at hshown ⊢
  rw [h.focused, h.workspace]
  simp only [fun i => (hface i).1, fun i => (hface i).2.1, fun i => (hface i).2.2.1,
    fun i => (hface i).2.2.2]
  exact hshown

theorem Focused.of_eq {s s' : Desktop} (hs : s.Focused) (ht : s'.table = s.table)
    (hf : s'.focusedWindow = s.focusedWindow) (hw : s'.currentWorkspace = s.currentWorkspace) :
    s'.Focused :=
  SameFocus.focused_of ⟨fun i => by rw [ht], hf, hw⟩ hs

theorem focused_of_shown (hd : Distinct s.table) (hi : i < windowLimit)
    (hs : (s.table i).shown s.currentWorkspace = true) (hf : s.focusedWindow = (s.table i).id) :
    s.Focused := by
  obtain ⟨hu, hm, hw⟩ := Window.shown_iff.1 hs
  exact ⟨hd, .inr ⟨i, hi, ⟨hu, hf.symm, hm, hw⟩,
    fun j hj huj hid => hd j hj i hi huj hu (by rw [hid, hf])⟩⟩

theorem focusTop_focused (hd : Distinct s.table) : s.focusTop.Focused := by
  rcases ht : findTopSlot s.table s.currentWorkspace with _ | i
  · exact ⟨hd, .inl (by simp [focusTop, topId, ht])⟩
  · obtain ⟨hi, hs⟩ := topmost_eq_some ht
    exact focused_of_shown hd hi hs (by simp [focusTop, topId, ht])

theorem distinct_update {t : WindowTable} (hd : Distinct t)
    (h : w.inUse = true → (t slot).inUse = true ∧ w.id = (t slot).id) :
    Distinct (Function.update t slot w) := by
  refine distinct_congr (fun i _ hu => ?_) hd
  by_cases hi : i = slot
  · subst hi
    rw [Function.update_self] at hu ⊢
    exact h hu
  · rw [Function.update_of_ne hi] at hu ⊢
    exact ⟨hu, rfl⟩

theorem restore_focused (hd : Distinct s.table) (hi : slot < windowLimit)
    (hu : (s.table slot).inUse = true) :
    { s.restore slot with currentWorkspace := (s.table slot).workspace }.Focused := by
  refine focused_of_shown (i := slot) ?_ hi ?_ ?_
  · refine distinct_update (distinct_update hd fun _ => ⟨hu, rfl⟩) fun _ => ?_
    simp [setWindow, hu]
  · simp [restore, raise, setWindow, Window.shown, hu]
  · simp [restore, raise, setWindow]

theorem restore_focused_of_eq (hd : Distinct s.table)
    (hi : slot < windowLimit) (hu : (s.table slot).inUse = true)
    (hw : (s.table slot).id ≠ 0 → (s.table slot).workspace = s.currentWorkspace) :
    (s.restore slot).Focused := by
  have h := restore_focused hd hi hu
  by_cases h0 : (s.table slot).id = 0
  · exact ⟨h.distinct, .inl h0⟩
  · rwa [hw h0] at h

theorem minimize_focused (hd : Distinct s.table) :
    (s.minimize slot).Focused :=
  focusTop_focused (distinct_update hd fun h => ⟨h, rfl⟩)

theorem sendWindowEvent_sameFocus (a : Answers) (s : Desktop) (event : WindowEvent) :
    s.SameFocus (s.sendWindowEvent a event) := by
  unfold sendWindowEvent
  split_ifs
  · exact .refl s
  · exact ⟨fun _ => rfl, rfl, rfl⟩

theorem sendPointer_sameFocus (a : Answers) (s : Desktop) (slot : ℕ) (opcode : UInt16)
    (serial width height : ℕ) : s.SameFocus (s.sendPointer a slot opcode serial width height) := by
  unfold sendPointer
  dsimp only
  split
  · split
    · exact .refl s
    · exact sendWindowEvent_sameFocus a s _
  · exact .refl s

theorem dropSurface_table (s : Desktop) (w : Window) : (s.dropSurface w).table = s.table := by
  unfold dropSurface
  split_ifs <;> rfl

theorem sendWindowEvent_table (a : Answers) (s : Desktop) (event : WindowEvent) :
    (s.sendWindowEvent a event).table = s.table := by
  unfold sendWindowEvent
  split_ifs <;> rfl

theorem distinct_empty {t : WindowTable} (hd : Distinct t) :
    Distinct (Function.update t slot .empty) :=
  distinct_update hd fun h => absurd h (by decide)

theorem closeWindow_focused (hd : Distinct s.table) :
    (s.closeWindow a slot).Focused := by
  unfold closeWindow
  dsimp only
  refine focusTop_focused (distinct_empty ?_)
  rw [dropSurface_table]
  split_ifs
  · rwa [sendWindowEvent_table]
  · exact hd

/-! ## Messages -/

theorem attachSurface_sameFocus (a : Answers) (s : Desktop) (slot handle : ℕ) :
    s.SameFocus (s.attachSurface a slot handle) := by
  unfold attachSurface
  split_ifs
  · exact .refl s
  · split
    · exact .setWindow rfl
    · exact ⟨fun _ => rfl, rfl, rfl⟩

theorem create_focused (m : WindowMessage) (hs : s.Focused) :
    (s.create a m).Focused := by
  unfold create
  split_ifs with hacc
  · split
    · exact hs
    · rename_i slot hfree
      obtain ⟨hlt, hunused⟩ := findFreeSlot_eq_some hfree
      dsimp only
      set placed := { s.setWindow slot (s.createdWindow m) with nextZ := add32 s.nextZ 1 } with hp
      have hnew : ∀ j < windowLimit, (s.table j).inUse = true → (s.table j).id ≠ m.windowId.toNat := by
        simp only [createAccepted, Bool.and_eq_true, Option.isNone_iff_eq_none] at hacc
        exact findSlot_eq_none.1 hacc.2
      have hdistinct : Distinct placed.table := by
        intro i hi j hj hui huj hid
        simp only [hp, setWindow, Function.update_apply] at hui huj hid
        split_ifs at hui huj hid with h1 h2 h2
        · rw [h1, h2]
        · exact absurd hid.symm (hnew j hj huj)
        · exact absurd hid (hnew i hi hui)
        · exact hs.distinct i hi j hj hui huj hid
      have hplaced : { placed with focusedWindow := m.windowId.toNat }.Focused := by
        refine focused_of_shown (i := slot) hdistinct hlt ?_ ?_
        · simp [hp, setWindow, createdWindow, Window.shown]
        · simp [hp, setWindow, createdWindow]
      have hsame := attachSurface_sameFocus a placed slot m.surfaceId.toNat
      exact SameFocus.focused_of (s := { placed with focusedWindow := m.windowId.toNat })
        ⟨hsame.face, rfl, hsame.workspace⟩ hplaced
  · exact hs

theorem close_focused (m : WindowMessage) (hs : s.Focused) :
    (s.close m).Focused := by
  unfold close
  split
  · exact hs
  · rename_i slot hslot
    obtain ⟨hlt, hu, hid⟩ := findSlot_eq_some hslot
    dsimp only
    have hd : Distinct ((s.dropSurface (s.table slot)).setWindow slot .empty).table := by
      refine distinct_empty ?_
      rw [dropSurface_table]
      exact hs.distinct
    split_ifs with hf
    · exact focusTop_focused hd
    · refine ⟨hd, ?_⟩
      -- the window that has the focus is another one
      have hsame : (s.dropSurface (s.table slot)).focusedWindow = s.focusedWindow
          ∧ (s.dropSurface (s.table slot)).currentWorkspace = s.currentWorkspace := by
        unfold dropSurface
        split_ifs <;> exact ⟨rfl, rfl⟩
      rcases hs.shown with h0 | ⟨i, hi, hshown, huniq⟩
      · exact .inl (hsame.1.trans h0)
      · have hne : i ≠ slot := by
          rintro rfl
          exact hf (by rw [← hshown.2.1, hid])
        refine .inr ⟨i, hi, ?_, fun j hj huj hidj => ?_⟩
        · simp only [setWindow, Function.update_of_ne hne, dropSurface_table, hsame]
          exact hshown
        · by_cases hjs : j = slot
          · subst hjs
            simp [setWindow, Window.empty] at huj
          · simp only [setWindow, Function.update_of_ne hjs, dropSurface_table, hsame] at huj hidj
            exact huniq j hj huj hidj

theorem move_sameFocus (s : Desktop) (m : WindowMessage) : s.SameFocus (s.move m) := by
  unfold move
  split
  · exact .refl s
  · split_ifs
    · exact .setWindow rfl
    · exact .refl s

theorem moveCursor_sameFocus (s : Desktop) (x y : Int32) : s.SameFocus (s.moveCursor x y) :=
  ⟨fun _ => rfl, rfl, rfl⟩

theorem focus_focused_iff {m : WindowMessage} (hs : s.Focused) :
    (s.focus m).Focused ↔ ∀ slot, findSlot s.table m.windowId.toNat = some slot →
      m.windowId ≠ 0 → (s.table slot).workspace = s.currentWorkspace := by
  unfold focus
  rcases hslot : findSlot s.table m.windowId.toNat with _ | slot
  · simpa using hs
  · obtain ⟨hlt, hu, hid⟩ := findSlot_eq_some hslot
    have h0 : m.windowId ≠ 0 ↔ (s.table slot).id ≠ 0 := by
      rw [hid, not_iff_not]
      exact ⟨fun h => by rw [h]; rfl, fun h => UInt32.toNat_inj.1 h⟩
    simp only [Option.some.injEq, forall_eq', h0]
    refine ⟨fun h hne => ?_, fun h => restore_focused_of_eq hs.distinct hlt hu h⟩
    rcases h.shown with hz | ⟨i, hi, hshown, huniq⟩
    · exact absurd hz hne
    · have hsi : slot = i := huniq slot hlt (by simp [restore, raise, setWindow, hu])
        (by simp [restore, raise, setWindow])
      subst hsi
      simpa [restore, raise, setWindow] using hshown.2.2.2

theorem message_focused_iff {m : WindowMessage} (hs : s.Focused) :
    (s.message a m).Focused ↔ s.FocusesShown (.message m) := by
  unfold message FocusesShown
  by_cases hcreate : m.opcode = opcodeCreate
  · simp only [hcreate, if_true]
    exact iff_of_true (create_focused m hs) (fun h => by cases h)
  rw [if_neg hcreate]
  by_cases hclose : m.opcode = opcodeClose
  · simp only [hclose, if_true]
    exact iff_of_true (close_focused m hs) (fun h => by cases h)
  rw [if_neg hclose]
  by_cases hfocus : m.opcode = opcodeFocus
  · simp only [hfocus, if_true, true_implies]
    exact focus_focused_iff hs
  rw [if_neg hfocus]
  simp only [hfocus, false_implies, iff_true]
  split_ifs
  · exact (move_sameFocus s m).focused_of hs
  · exact (moveCursor_sameFocus s m.x m.y).focused_of hs
  · exact hs

/-! ## Events -/

theorem draggedTo_face (w : Window) (x y : ℤ) : (draggedTo w x y).face = w.face := by
  unfold draggedTo Window.face
  rfl

theorem resizedTo_face (w : Window) (width height : ℤ) :
    (resizedTo w width height).face = w.face := by
  unfold resizedTo Window.face
  rfl

theorem dragTo_sameFocus (s : Desktop) (slot : ℕ) : s.SameFocus (s.dragTo slot) := by
  unfold dragTo
  refine ⟨face_update ?_, rfl, rfl⟩
  rw [draggedTo_face]
  split_ifs <;> rfl

theorem resizeTo_sameFocus (s : Desktop) (slot : ℕ) : s.SameFocus (s.resizeTo slot) :=
  .setWindow (resizedTo_face _ _ _)

theorem pointerMoved_sameFocus (a : Answers) (s : Desktop) : s.SameFocus (s.pointerMoved a) := by
  unfold pointerMoved
  split_ifs
  · split
    · exact dragTo_sameFocus s _
    · exact ⟨fun _ => rfl, rfl, rfl⟩
  · split
    · exact resizeTo_sameFocus s _
    · exact ⟨fun _ => rfl, rfl, rfl⟩
  · split
    · exact sendPointer_sameFocus a s _ _ _ _ _
    · exact .refl s

theorem hoverLauncher_sameFocus (s : Desktop) : s.SameFocus s.hoverLauncher := by
  unfold hoverLauncher
  split_ifs
  · split
    · exact .refl s
    · exact ⟨fun _ => rfl, rfl, rfl⟩
  · exact .refl s

theorem mouseMove_sameFocus (a : Answers) (s : Desktop) (e : InputEvent) :
    s.SameFocus (s.mouseMove a e) :=
  ((moveCursor_sameFocus s e.x e.y).trans (hoverLauncher_sameFocus _)).trans
    (pointerMoved_sameFocus a _)

theorem snap_sameFocus (s : Desktop) : s.SameFocus s.snap := by
  unfold snap
  dsimp only
  split_ifs
  · split
    · exact .refl s
    · exact .setWindow rfl
  · exact .refl s

theorem release_sameFocus (a : Answers) (s : Desktop) (code : UInt16) :
    s.SameFocus (s.release a code) := by
  have hended : s.SameFocus { s.snap with draggingId := 0, resizingId := 0 } :=
    (snap_sameFocus s).trans ⟨fun _ => rfl, rfl, rfl⟩
  unfold release
  dsimp only
  split_ifs
  · split
    · exact hended
    · exact hended.trans (sendPointer_sameFocus a _ _ _ _ _ _)
  · exact hended

theorem activateLauncherCell_focused (cell : ℕ) (hs : s.Focused) :
    (s.activateLauncherCell cell).Focused := by
  unfold activateLauncherCell
  split
  · exact hs
  · split
    · rename_i slot hslot
      obtain ⟨hlt, hp, -⟩ := Table.firstIndex_eq_some.1 hslot
      rw [Bool.and_eq_true, Bool.and_eq_true] at hp
      exact restore_focused hs.distinct hlt hp.1.1
    · split
      · exact hs
      · exact hs.of_eq rfl rfl rfl

theorem taskbarScan_workspace {workspace itemWidth x id : ℕ} :
    ∀ {slots : List ℕ} {itemX : ℕ}, (∀ i ∈ slots, i < windowLimit) →
      taskbarScan table workspace itemWidth x slots itemX = some id →
      ∃ i < windowLimit, (table i).listed workspace = true ∧ (table i).id = id
  | [], _, _, h => by cases h
  | i :: rest, itemX, hlt, h => by
    have hrest : ∀ j ∈ rest, j < windowLimit := fun j hj => hlt j (List.mem_cons_of_mem i hj)
    unfold taskbarScan at h
    split_ifs at h with hlisted hx
    · exact taskbarScan_workspace hrest h
    · exact ⟨i, hlt i List.mem_cons_self, by simpa using hlisted, Option.some.inj h⟩
    · exact taskbarScan_workspace hrest h

theorem taskbarItemAt_workspace {workspace x y id : ℕ}
    (h : taskbarItemAt table workspace x y = some id) :
    ∃ i < windowLimit, (table i).listed workspace = true ∧ (table i).id = id := by
  unfold taskbarItemAt at h
  split_ifs at h
  exact taskbarScan_workspace (fun i hi => List.mem_range.1 hi) h

theorem pressTaskbarItem_focused {x y id : ℕ} (hs : s.Focused)
    (h : taskbarItemAt s.table s.currentWorkspace x y = some id) :
    (s.pressTaskbarItem id).Focused := by
  obtain ⟨i, hi, hlisted, hid⟩ := taskbarItemAt_workspace h
  unfold pressTaskbarItem
  split
  · exact hs
  · rename_i slot hslot
    obtain ⟨hlt, hu, hids⟩ := findSlot_eq_some hslot
    split_ifs
    · exact minimize_focused hs.distinct
    · simp only [Window.listed, Bool.and_eq_true, beq_iff_eq] at hlisted
      obtain rfl : i = slot := hs.distinct i hi slot hlt hlisted.1.1 hu (hid.trans hids.symm)
      have := restore_focused_of_eq hs.distinct hlt hu fun _ => hlisted.1.2
      rwa [show { s.restore i with focusedWindow := id } = s.restore i by rw [restore, ← hid]]

theorem raised_focused (hd : Distinct s.table) (hlt : slot < windowLimit)
    (hshown : (s.table slot).shown s.currentWorkspace = true) :
    { s.raise slot with focusedWindow := (s.table slot).id }.Focused := by
  refine focused_of_shown (i := slot) (distinct_update hd fun h => ⟨h, rfl⟩) hlt ?_ ?_
  · simpa [raise, setWindow, Window.shown] using hshown
  · simp [raise, setWindow]

theorem toggleMaximize_face (h : w.minimized = false) :
    (toggleMaximize w).face = w.face := by
  unfold toggleMaximize
  split_ifs <;> simp [Window.face, Window.place, Window.remember, h]

theorem toggleMaximize_identity (w : Window) :
    (toggleMaximize w).inUse = w.inUse ∧ (toggleMaximize w).id = w.id
      ∧ (toggleMaximize w).workspace = w.workspace ∧ (toggleMaximize w).minimized = false := by
  unfold toggleMaximize
  split_ifs <;> simp [Window.place, Window.remember]

theorem pressTitle_focused (hd : Distinct s.table)
    (hlt : slot < windowLimit) (hshown : (s.table slot).shown s.currentWorkspace = true) :
    (s.pressTitle a slot).Focused := by
  have hraised := raised_focused hd hlt hshown
  have hm : (s.table slot).minimized = false := (Window.shown_iff.1 hshown).2.1
  unfold pressTitle
  dsimp only
  split_ifs
  · exact closeWindow_focused hraised.distinct
  · exact (SameFocus.setWindow (toggleMaximize_face (by simp [raise, setWindow, hm]))).focused_of
      hraised
  · exact (minimize_focused hraised.distinct).of_eq rfl rfl rfl
  · exact hraised.of_eq rfl rfl rfl

theorem pressContent_focused (code : UInt16)
    (hd : Distinct s.table) (hlt : slot < windowLimit)
    (hshown : (s.table slot).shown s.currentWorkspace = true) :
    (s.pressContent a slot code).Focused := by
  have hraised := raised_focused hd hlt hshown
  unfold pressContent
  dsimp only
  split_ifs
  · exact hraised.of_eq rfl rfl rfl
  · exact (sendPointer_sameFocus a _ _ _ _ _ _).focused_of hraised

theorem showWorkspace_focused (workspace : ℕ) (hd : Distinct s.table) :
    (s.showWorkspace workspace).Focused :=
  focusTop_focused hd

theorem pressTarget_taskbarItem (h : s.pressTarget = .taskbarItem id) :
    taskbarItemAt s.table s.currentWorkspace s.cursorX s.cursorY = some id := by
  unfold pressTarget at h
  dsimp only at h
  repeat' split at h
  all_goals first | cases h; assumption | cases h

theorem pressTarget_title (h : s.pressTarget = .title slot) :
    decorationHitAt s.table s.currentWorkspace s.cursorX s.cursorY = some slot := by
  unfold pressTarget at h
  dsimp only at h
  repeat' split at h
  all_goals first | cases h; assumption | cases h

theorem pressTarget_content (h : s.pressTarget = .content slot) :
    topSlotAt s.table s.currentWorkspace s.cursorX s.cursorY = some slot := by
  unfold pressTarget at h
  dsimp only at h
  repeat' split at h
  all_goals first | cases h; assumption | cases h

theorem press_focused (code : UInt16) (hs : s.Focused) :
    (s.press a code).Focused := by
  unfold press
  split
  · exact hs.of_eq rfl rfl rfl
  · exact (activateLauncherCell_focused _ hs).of_eq rfl rfl rfl
  · exact hs.of_eq rfl rfl rfl
  · exact (activateLauncherCell_focused _ hs).of_eq rfl rfl rfl
  · exact showWorkspace_focused _ hs.distinct
  · rename_i id htarget
    exact pressTaskbarItem_focused hs (pressTarget_taskbarItem htarget)
  · rename_i slot htarget
    obtain ⟨hlt, hp⟩ := topmost_eq_some (pressTarget_title htarget)
    simp only [Window.decorationHit, Bool.and_eq_true] at hp
    exact pressTitle_focused hs.distinct hlt hp.1.1.1.1.1
  · rename_i slot htarget
    obtain ⟨hlt, hp⟩ := topmost_eq_some (pressTarget_content htarget)
    simp only [Window.contentHit, Bool.and_eq_true] at hp
    exact pressContent_focused code hs.distinct hlt hp.1.1.1.1
  · exact hs

theorem cycleFocus_focused (hs : s.Focused) : s.cycleFocus.Focused := by
  unfold cycleFocus
  split
  · exact hs
  · rename_i slot hslot
    rcases Option.or_eq_some_iff.1 hslot with hnext | ⟨-, hsame⟩
    · obtain ⟨hlt, hp⟩ := topmost_eq_some hnext
      simp only [Window.listed, Bool.and_eq_true, beq_iff_eq] at hp
      exact restore_focused_of_eq hs.distinct hlt hp.1.1.1 fun _ => hp.1.1.2
    · obtain ⟨hlt, hu, hid⟩ := findSlot_eq_some hsame
      refine restore_focused_of_eq hs.distinct hlt hu fun hne => ?_
      rcases hs.shown with h0 | ⟨i, hi, hshown, huniq⟩
      · exact absurd (hid.trans h0) hne
      · rw [huniq slot hlt hu hid]
        exact hshown.2.2.2

theorem windowKey_focused (code : UInt16) (hs : s.Focused) :
    (s.windowKey a code).Focused := by
  unfold windowKey
  split
  · exact hs
  · rename_i slot hslot
    obtain ⟨hlt, hu, hid⟩ := findSlot_eq_some hslot
    split_ifs
    · exact closeWindow_focused hs.distinct
    · exact minimize_focused hs.distinct
    · obtain ⟨hiu, hii, hiw, him⟩ := toggleMaximize_identity (s.table slot)
      have hd : Distinct (s.setWindow slot (toggleMaximize (s.table slot))).table :=
        distinct_update hs.distinct fun _ => ⟨hu, hii⟩
      rcases hs.shown with h0 | ⟨i, hi, hshown, huniq⟩
      · exact ⟨hd, .inl h0⟩
      · obtain rfl : slot = i := huniq slot hlt hu hid
        refine focused_of_shown hd hlt ?_ ?_
        · simp [setWindow, Window.shown, hiu, hiw, him, hu, hshown.2.2.2]
        · simp [setWindow, hii, hid]

theorem launcherKey_focused (code : UInt16) (hs : s.Focused) :
    (s.launcherKey code).Focused := by
  have hkept : { s with suppressedKeyUp := code }.Focused := hs.of_eq rfl rfl rfl
  have hchosen : ∀ cell, { s with suppressedKeyUp := code, launcherSelection := cell }.Focused :=
    fun cell => hs.of_eq rfl rfl rfl
  unfold launcherKey
  dsimp only
  split_ifs
  · exact hs.of_eq rfl rfl rfl
  · exact hs.of_eq rfl rfl rfl
  · exact hs.of_eq rfl rfl rfl
  · exact (activateLauncherCell_focused _ hkept).of_eq rfl rfl rfl
  · exact (activateLauncherCell_focused _ (hchosen _)).of_eq rfl rfl rfl
  · exact hs

theorem key_focused (e : InputEvent) (hs : s.Focused) :
    (s.key a e).Focused := by
  have hkept : ∀ code : UInt16, { s with suppressedKeyUp := code }.Focused :=
    fun code => hs.of_eq rfl rfl rfl
  unfold key
  dsimp only
  split_ifs
  · exact hkept 0
  · exact (showWorkspace_focused _ (hkept e.code).distinct).of_eq rfl rfl rfl
  · exact hs
  · exact hs.of_eq rfl rfl rfl
  · exact hs
  · exact (cycleFocus_focused (hkept e.code)).of_eq rfl rfl rfl
  · exact hs
  · exact (windowKey_focused e.code (hkept e.code)).of_eq rfl rfl rfl
  · exact hs
  · exact launcherKey_focused e.code hs
  · exact hs
  · exact (sendWindowEvent_sameFocus a s _).focused_of hs
  · exact hs

theorem input_focused (e : InputEvent) (hs : s.Focused) :
    (s.input a e).Focused := by
  unfold input
  split_ifs
  · exact (mouseMove_sameFocus a s e).focused_of hs
  · exact press_focused _ ((moveCursor_sameFocus s e.x e.y).focused_of hs)
  · exact ((moveCursor_sameFocus s e.x e.y).trans (release_sameFocus a _ e.code)).focused_of hs
  · exact key_focused e hs
  · exact hs

theorem step_focused_iff {i : Input} (hs : s.Focused) :
    (step s (a, i)).Focused ↔ s.FocusesShown i := by
  rcases i with m | e
  · exact message_focused_iff hs
  · exact iff_of_true (input_focused e hs) trivial

/-! ## Runs -/

def Seen (s : Desktop) (id : ℕ) : Prop :=
  ∃ i < windowLimit, (s.table i).shown s.currentWorkspace = true ∧ (s.table i).id = id

def StepShown (s : Desktop) (i : Answers × Input) : Prop :=
  (step s i).FocusShown
    ∧ ∀ event, event.opcode = opcodeKey → Sends i.1 s i.2 event → s.Seen event.windowId

theorem Focused.keys_seen {i : Input} (hs : s.Focused)
    {event : WindowEvent} (hk : event.opcode = opcodeKey) (h : Sends a s i event) :
    s.Seen event.windowId := by
  obtain ⟨e, -, hf, rfl, -⟩ := (step_sends_key hk).1 h
  rcases hs.shown with h0 | ⟨j, hj, ⟨hu, hid, hm, hw⟩, -⟩
  · exact absurd h0 hf.focused
  · exact ⟨j, hj, Window.shown_iff.2 ⟨hu, hm, hw⟩, hid⟩

theorem message_distinct (m : WindowMessage) (hs : s.Focused) :
    Distinct (s.message a m).table := by
  by_cases hfocus : m.opcode = opcodeFocus
  · have hmessage : s.message a m = s.focus m := by
      unfold message
      rw [hfocus]
      rfl
    rw [hmessage]
    unfold focus
    split
    · exact hs.distinct
    · rename_i slot hslot
      obtain ⟨hlt, hu, -⟩ := findSlot_eq_some hslot
      exact (restore_focused hs.distinct hlt hu).distinct
  · exact ((message_focused_iff hs).2 fun h => absurd h hfocus).distinct

theorem step_distinct {i : Answers × Input} (hs : s.Focused) :
    Distinct (step s i).table := by
  rcases i with ⟨a, m | e⟩
  · exact message_distinct m hs
  · exact (input_focused e hs).distinct

theorem fresh_focused : ({} : Desktop).Focused :=
  ⟨fun i _ j _ hi => absurd hi (by simp [Window.empty]), .inl rfl⟩

/-- Every step of a run leaves the focus shown, and sends keys to windows that can be seen, just
when no FOCUS of the run names a window of another workspace. -/
theorem focus_shown_iff (inputs : List (Answers × Input)) :
    Machine.Meets step StepShown {} inputs
      ↔ Machine.Meets step (fun s i => s.FocusesShown i.2) {} inputs := by
  refine Machine.meets_congr step (I := Focused) (fun s i hs => ?_) (fun s i hs hi => ?_) inputs {}
    fresh_focused
  · rw [← step_focused_iff (a := i.1) hs]
    exact ⟨fun h => ⟨step_distinct hs, h.1⟩, fun h => ⟨h.shown, fun _ => hs.keys_seen⟩⟩
  · exact ⟨step_distinct hs, hi.1⟩

/-- A kernel that knows no surface and connects every channel. -/
def plainAnswers : Answers :=
  { handleQuery := fun _ _ => uint64Max, surfaceMap := fun _ => uint64Max
    channelConnect := fun _ => 1 }

/-- A window is created, the second workspace shown, and the window focused. -/
def strayFocus : List (Answers × Input) :=
  [(plainAnswers, .message
      { opcode := opcodeCreate, windowId := 2097152, x := 0, y := 100, width := 200, height := 150 }),
    (plainAnswers, .event { kind := inputKeyDown, code := 3, modifiers := inputModCtrl }),
    (plainAnswers, .message { opcode := opcodeFocus, windowId := 2097152 })]

/-- The focus is on a window of the first workspace while the second is shown. -/
theorem stray_focus_hidden : (Machine.run step {} strayFocus).focusedWindow = 2097152
    ∧ ¬Machine.Meets step StepShown {} strayFocus := by
  have hlast : (Machine.run step {} strayFocus).focusedWindow = 2097152
      ∧ (Machine.run step {} strayFocus).currentWorkspace = 1
      ∧ ∀ i < windowLimit, ((Machine.run step {} strayFocus).table i).workspace = 0 := by
    decide +kernel
  refine ⟨hlast.1, fun h => ?_⟩
  rcases h.2.2.1.1 with h0 | ⟨i, hi, ⟨-, -, -, hw⟩, -⟩
  · have := h0.symm.trans hlast.1
    cases this
  · have := (hw.symm.trans (hlast.2.2 i hi)).symm.trans hlast.2.1
    cases this

end Desktop

end Compositor

end DemonOS
