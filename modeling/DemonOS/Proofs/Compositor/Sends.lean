import DemonOS.Compositor.Main

/-!
# What a step sends

A step only adds to the calls, and the only key event it ever adds is the one that `forwardKey`
sends to the focused window (`step_sends_key`).
-/

namespace DemonOS

namespace Compositor

namespace Desktop

def KeyFree (c : Call) : Prop := ∀ event, c = .windowEvent event → event.opcode ≠ opcodeKey

def Adds (s s' : Desktop) : Prop := ∃ l, s'.calls = s.calls ++ l ∧ ∀ c ∈ l, KeyFree c

def Sends (a : Answers) (s : Desktop) (i : Input) (event : WindowEvent) : Prop :=
  ∃ l, (step s (a, i)).calls = s.calls ++ l ∧ .windowEvent event ∈ l

structure Forwards (s : Desktop) (e : InputEvent) : Prop where
  kind : e.kind = inputKeyDown ∨ e.kind = inputKeyUp
  kept : ¬(e.kind = inputKeyUp ∧ s.suppressedKeyUp = e.code)
  workspace : workspaceShortcut e = false
  launcher : launcherShortcut e = false
  cycle : cycleShortcut e = false
  window : windowShortcut e = false
  closed : s.launcherOpen = false
  focused : s.focusedWindow ≠ 0

def keyEvent (s : Desktop) (e : InputEvent) : WindowEvent :=
  { opcode := opcodeKey, serial := 3, windowId := s.focusedWindow
    x := packedTypeCode e.kind e.code, y := i32 e.modifiers.toNat, width := u32 e.value.toInt }

theorem Adds.of_eq {s s' : Desktop} (h : s'.calls = s.calls) : s.Adds s' := ⟨[], by simp [h]⟩

theorem Adds.refl (s : Desktop) : s.Adds s := .of_eq rfl

theorem Adds.trans {s s' s'' : Desktop} (h : s.Adds s') (h' : s'.Adds s'') : s.Adds s'' := by
  obtain ⟨l, hl, hq⟩ := h
  obtain ⟨l', hl', hq'⟩ := h'
  refine ⟨l ++ l', by rw [hl', hl, List.append_assoc], fun c hc => ?_⟩
  rcases List.mem_append.1 hc with h | h
  · exact hq c h
  · exact hq' c h

theorem Adds.congr {s s' t t' : Desktop} (h : t.Adds t') (hs : t.calls = s.calls)
    (hs' : s'.calls = t'.calls) : s.Adds s' := by
  unfold Adds at h ⊢
  rwa [hs', ← hs]

theorem Adds.call {s : Desktop} {c : Call} (h : KeyFree c) : s.Adds (s.call c) :=
  ⟨[c], rfl, fun c' hc => by rwa [List.mem_singleton.1 hc]⟩

theorem sendWindowEvent_adds {a : Answers} {s : Desktop} {event : WindowEvent}
    (h : event.opcode ≠ opcodeKey) : s.Adds (s.sendWindowEvent a event) := by
  unfold sendWindowEvent
  split_ifs
  · exact .refl s
  · refine .call fun event' heq => ?_
    cases heq
    exact h

theorem sendPointer_adds {a : Answers} {s : Desktop} {slot : ℕ} {opcode : UInt16}
    {serial width height : ℕ} (h : opcode ≠ opcodeKey) :
    s.Adds (s.sendPointer a slot opcode serial width height) := by
  unfold sendPointer
  dsimp only
  split
  · split
    · exact .refl s
    · exact sendWindowEvent_adds h
  · exact .refl s

theorem dropSurface_adds (s : Desktop) (w : Window) : s.Adds (s.dropSurface w) := by
  unfold dropSurface
  split_ifs
  · exact (Adds.call fun _ h => by cases h).trans (Adds.call fun _ h => by cases h)
  · exact .refl s

theorem closeWindow_adds (a : Answers) (s : Desktop) (slot : ℕ) : s.Adds (s.closeWindow a slot) := by
  unfold closeWindow
  dsimp only
  split_ifs
  · exact ((sendWindowEvent_adds (by simp [opcodeClose, opcodeKey])).trans
      (dropSurface_adds _ _)).congr rfl rfl
  · exact (dropSurface_adds s _).congr rfl rfl

theorem attachSurface_adds (a : Answers) (s : Desktop) (slot handle : ℕ) :
    s.Adds (s.attachSurface a slot handle) := by
  unfold attachSurface
  split_ifs
  · exact .refl s
  · split
    · exact .of_eq rfl
    · exact .call fun _ h => by cases h

theorem message_adds (a : Answers) (s : Desktop) (m : WindowMessage) : s.Adds (s.message a m) := by
  unfold message
  split_ifs
  · unfold create
    split_ifs
    · split
      · exact .refl s
      · rename_i slot _
        dsimp only
        exact (attachSurface_adds a { s.setWindow slot (s.createdWindow m) with
          nextZ := add32 s.nextZ 1 } slot m.surfaceId.toNat).congr rfl rfl
    · exact .refl s
  · unfold close
    split
    · exact .refl s
    · dsimp only
      split_ifs
      · exact (dropSurface_adds s _).trans (.of_eq rfl)
      · exact (dropSurface_adds s _).trans (.of_eq rfl)
  · unfold focus
    split <;> exact .of_eq rfl
  · unfold move
    split
    · exact .refl s
    · split_ifs <;> exact .of_eq rfl
  · exact .of_eq rfl
  · exact .refl s

theorem mouseMove_adds (a : Answers) (s : Desktop) (e : InputEvent) : s.Adds (s.mouseMove a e) := by
  have hhover : s.Adds (s.moveCursor e.x e.y).hoverLauncher := by
    unfold hoverLauncher
    split_ifs
    · split <;> exact .of_eq rfl
    · exact .of_eq rfl
  refine hhover.trans ?_
  unfold mouseMove pointerMoved
  split_ifs
  · split <;> exact .of_eq rfl
  · split <;> exact .of_eq rfl
  · split
    · exact sendPointer_adds (by decide)
    · exact .refl _

theorem activateLauncherCell_adds (s : Desktop) (cell : ℕ) :
    s.Adds (s.activateLauncherCell cell) := by
  unfold activateLauncherCell
  split
  · exact .refl s
  · split
    · exact .of_eq rfl
    · split
      · exact .refl s
      · exact .call fun _ h => by cases h

theorem press_adds (a : Answers) (s : Desktop) (code : UInt16) : s.Adds (s.press a code) := by
  unfold press
  split
  · exact .of_eq rfl
  · exact (activateLauncherCell_adds s _).trans (.of_eq rfl)
  · exact .of_eq rfl
  · exact (activateLauncherCell_adds s _).trans (.of_eq rfl)
  · exact .of_eq rfl
  · unfold pressTaskbarItem
    split
    · exact .refl s
    · split_ifs <;> exact .of_eq rfl
  · unfold pressTitle
    dsimp only
    split_ifs
    · exact (Adds.of_eq rfl).trans (closeWindow_adds a _ _)
    · exact .of_eq rfl
    · exact .of_eq rfl
    · exact .of_eq rfl
  · unfold pressContent
    dsimp only
    split_ifs
    · exact .of_eq rfl
    · exact (Adds.of_eq rfl).trans (sendPointer_adds (by decide))
  · exact .refl s

theorem release_adds (a : Answers) (s : Desktop) (code : UInt16) : s.Adds (s.release a code) := by
  have hended : s.Adds { s.snap with draggingId := 0, resizingId := 0 } := by
    refine .of_eq ?_
    dsimp only
    unfold snap
    dsimp only
    split_ifs
    · split <;> rfl
    · rfl
  unfold release
  dsimp only
  split_ifs
  · split
    · exact hended
    · exact hended.trans (sendPointer_adds (by decide))
  · exact hended

theorem launcherKey_adds (s : Desktop) (code : UInt16) : s.Adds (s.launcherKey code) := by
  unfold launcherKey
  dsimp only
  split_ifs
  · exact .of_eq rfl
  · exact .of_eq rfl
  · exact .of_eq rfl
  · exact (activateLauncherCell_adds { s with suppressedKeyUp := code } _).congr rfl rfl
  · exact (activateLauncherCell_adds { s with
      suppressedKeyUp := code, launcherSelection := (code - keyWorkspace1).toNat } _).congr rfl rfl
  · exact .refl s

theorem windowKey_adds (a : Answers) (s : Desktop) (code : UInt16) :
    s.Adds (s.windowKey a code) := by
  unfold windowKey
  split
  · exact .refl s
  · split_ifs
    · exact closeWindow_adds a s _
    · exact .of_eq rfl
    · exact .of_eq rfl

theorem key_adds (a : Answers) (s : Desktop) (e : InputEvent)
    (hkind : e.kind = inputKeyDown ∨ e.kind = inputKeyUp) :
    (s.Forwards e ∧ s.key a e = s.forwardKey a e) ∨ (¬s.Forwards e ∧ s.Adds (s.key a e)) := by
  unfold key
  dsimp only
  by_cases hkept : e.kind = inputKeyUp ∧ s.suppressedKeyUp = e.code
  · rw [if_pos hkept]
    exact .inr ⟨fun h => h.kept hkept, .of_eq rfl⟩
  rw [if_neg hkept]
  by_cases hworkspace : workspaceShortcut e = true
  · rw [if_pos hworkspace]
    refine .inr ⟨fun h => by simp [h.workspace] at hworkspace, ?_⟩
    split_ifs <;> exact .of_eq rfl
  rw [if_neg hworkspace]
  by_cases hlauncher : launcherShortcut e = true
  · rw [if_pos hlauncher]
    refine .inr ⟨fun h => by simp [h.launcher] at hlauncher, ?_⟩
    split_ifs <;> exact .of_eq rfl
  rw [if_neg hlauncher]
  by_cases hcycle : cycleShortcut e = true
  · rw [if_pos hcycle]
    refine .inr ⟨fun h => by simp [h.cycle] at hcycle, ?_⟩
    split_ifs
    · unfold cycleFocus
      split <;> exact .of_eq rfl
    · exact .refl s
  rw [if_neg hcycle]
  by_cases hwindow : windowShortcut e = true
  · rw [if_pos hwindow]
    refine .inr ⟨fun h => by simp [h.window] at hwindow, ?_⟩
    split_ifs
    · exact (windowKey_adds a { s with suppressedKeyUp := e.code } e.code).congr rfl rfl
    · exact .refl s
  rw [if_neg hwindow]
  by_cases hopen : s.launcherOpen = true
  · rw [if_pos hopen]
    refine .inr ⟨fun h => by simp [h.closed] at hopen, ?_⟩
    split_ifs
    · exact launcherKey_adds s _
    · exact .refl s
  rw [if_neg hopen]
  by_cases hfocus : s.focusedWindow ≠ 0
  · rw [if_pos hfocus]
    simp only [Bool.not_eq_true] at hworkspace hlauncher hcycle hwindow hopen
    exact .inl ⟨⟨hkind, hkept, hworkspace, hlauncher, hcycle, hwindow, hopen, hfocus⟩, rfl⟩
  · rw [if_neg hfocus]
    exact .inr ⟨fun h => hfocus h.focused, .refl s⟩

theorem step_adds (a : Answers) (s : Desktop) (i : Input) :
    (∃ e, i = .event e ∧ s.Forwards e ∧ step s (a, i) = s.forwardKey a e)
      ∨ ((∀ e, i = .event e → ¬s.Forwards e) ∧ s.Adds (step s (a, i))) := by
  rcases i with m | e
  · exact .inr ⟨fun e h => (by cases h), message_adds a s m⟩
  · have hother : e.kind ≠ inputKeyDown → e.kind ≠ inputKeyUp →
        ∀ e', Input.event e = .event e' → ¬s.Forwards e' := by
      rintro hd hu e' heq hf
      cases heq
      rcases hf.kind with h | h
      · exact hd h
      · exact hu h
    simp only [step, input]
    split_ifs with h1 h2 h3 h4
    · exact .inr ⟨hother (by rw [h1]; decide) (by rw [h1]; decide), mouseMove_adds a s e⟩
    · exact .inr ⟨hother (by rw [h2]; decide) (by rw [h2]; decide),
        (press_adds a (s.moveCursor e.x e.y) e.code).congr rfl rfl⟩
    · exact .inr ⟨hother (by rw [h3]; decide) (by rw [h3]; decide),
        (release_adds a (s.moveCursor e.x e.y) e.code).congr rfl rfl⟩
    · rcases key_adds a s e h4 with ⟨hf, heq⟩ | ⟨hf, hadds⟩
      · exact .inl ⟨e, rfl, hf, heq⟩
      · refine .inr ⟨fun e' heq => ?_, hadds⟩
        cases heq
        exact hf
    · exact .inr ⟨hother (fun h => h4 (.inl h)) (fun h => h4 (.inr h)), .refl s⟩

theorem Adds.not_mem {s s' : Desktop} (h : s.Adds s') {l : List Call}
    (hl : s'.calls = s.calls ++ l) {event : WindowEvent} (hk : event.opcode = opcodeKey) :
    Call.windowEvent event ∉ l := by
  obtain ⟨l', hl', hq⟩ := h
  obtain rfl : l = l' := List.append_cancel_left (hl.symm.trans hl')
  exact fun hmem => hq _ hmem event rfl hk

/-- The one key event a step can send. -/
theorem step_sends_key {a : Answers} {s : Desktop} {i : Input} {event : WindowEvent}
    (hk : event.opcode = opcodeKey) :
    Sends a s i event ↔ ∃ e, i = .event e ∧ s.Forwards e ∧ event = s.keyEvent e
      ∧ a.channelConnect (eventChannel s.focusedWindow) ≠ uint64Max := by
  constructor
  · rintro ⟨l, hl, hmem⟩
    rcases step_adds a s i with ⟨e, rfl, hf, heq⟩ | ⟨-, hadds⟩
    · refine ⟨e, rfl, hf, ?_⟩
      rw [heq, forwardKey, sendWindowEvent] at hl
      split_ifs at hl with hc
      · have : l = [] := by simpa using hl
        rw [this] at hmem
        cases hmem
      · obtain rfl : [Call.windowEvent (s.keyEvent e)] = l := List.append_cancel_left hl
        exact ⟨by simpa using hmem, hc⟩
    · exact absurd hmem (hadds.not_mem hl hk)
  · rintro ⟨e, rfl, hf, rfl, hc⟩
    rcases step_adds a s (.event e) with ⟨e', he, -, heq⟩ | ⟨hnot, -⟩
    · cases he
      refine ⟨[.windowEvent (s.keyEvent e)], ?_, List.mem_singleton_self _⟩
      rw [heq, forwardKey, sendWindowEvent, if_neg hc]
      rfl
    · exact absurd hf (hnot e rfl)

end Desktop

end Compositor

end DemonOS
