import DemonOS.Proofs.Compositor.Focus

/-!
# Key strokes

Beside the desktop a run keeps, for every key that is down, the state in which it went down. A
release that reaches a window has to have its press reach the same window. The compositor remembers
one key whose press it has taken for itself and swallows its release; it forgets it when it takes
another one, and some presses it takes without remembering them at all. `half_strokes_iff` says
when no release is left alone.
-/

namespace DemonOS

namespace Compositor

namespace Desktop

variable {a : Answers} {e : InputEvent} {s : Desktop} {t : Desktop × Journal}

/-- A key is for the focused window, if it is not one to be swallowed, and the window can be
reached. -/
structure Receptive (a : Answers) (s : Desktop) (e : InputEvent) : Prop where
  workspace : workspaceShortcut e = false
  launcher : launcherShortcut e = false
  cycle : cycleShortcut e = false
  window : windowShortcut e = false
  closed : s.launcherOpen = false
  focused : s.focusedWindow ≠ 0
  connected : a.channelConnect (eventChannel s.focusedWindow) ≠ uint64Max

/-- The press is taken by the desktop, and its release will be swallowed. -/
def remembers (s : Desktop) (e : InputEvent) : Bool :=
  workspaceShortcut e || launcherShortcut e || cycleShortcut e || windowShortcut e
    || (s.launcherOpen && (e.code == keyEscape || e.code == keyEnter || isWorkspaceKey e.code))

/-- The press of a key that is down: what it met, and whether no other press has been remembered
since. -/
structure Press where
  answers : Answers
  state : Desktop
  event : InputEvent
  latest : Bool

abbrev Journal : Type := UInt16 → Option Press

def record (s : Desktop) (j : Journal) : Answers × Input → Journal
  | (_, .message _) => j
  | (a, .event e) => fun k =>
    if e.kind = inputKeyDown then
      if k = e.code then some ⟨a, s, e, true⟩
      else if s.remembers e then (j k).map fun p => { p with latest := false }
      else j k
    else if e.kind = inputKeyUp ∧ k = e.code then none
    else j k

def stroke (t : Desktop × Journal) (i : Answers × Input) : Desktop × Journal :=
  (step t.1 i, record t.1 t.2 i)

/-- The downs and ups of each key alternate: no key goes down that is down. Ups of keys that went
down before the run are let through. -/
def Alternates (t : Desktop × Journal) (i : Answers × Input) : Prop :=
  ∀ e, i.2 = .event e → e.kind = inputKeyDown → t.2 e.code = none

/-- A release that is sent to a window had its press sent to the same window. -/
def Whole (t : Desktop × Journal) (i : Answers × Input) : Prop :=
  ∀ e event, i.2 = .event e → e.kind = inputKeyUp → event.opcode = opcodeKey →
    Sends i.1 t.1 i.2 event → ∃ p, t.2 e.code = some p ∧ ∃ event', event'.opcode = opcodeKey
      ∧ Sends p.answers p.state (.event p.event) event' ∧ event'.windowId = event.windowId

/-- A release that would reach a window belongs to a press that reached it, or to the press that was
remembered last. The code 0, which is no key's, is also swallowed while none is remembered. -/
def Matched (t : Desktop × Journal) (i : Answers × Input) : Prop :=
  ∀ e, i.2 = .event e → e.kind = inputKeyUp → Receptive i.1 t.1 e →
    (∃ p, t.2 e.code = some p ∧ ((p.state.remembers p.event = true ∧ p.latest = true)
      ∨ (Receptive p.answers p.state p.event ∧ p.state.focusedWindow = t.1.focusedWindow)))
    ∨ (e.code = 0 ∧ t.1.suppressedKeyUp = 0)

/-- What the desktop remembers is the press that was remembered last, if its key is still down. -/
structure Remembered (t : Desktop × Journal) : Prop where
  press : ∀ k p, t.2 k = some p → p.event.kind = inputKeyDown ∧ p.event.code = k
  suppressed : ∀ k, k ≠ 0 → (t.1.suppressedKeyUp = k
    ↔ ∃ p, t.2 k = some p ∧ p.state.remembers p.event = true ∧ p.latest = true)

/-! ## The remembered key -/

theorem sendWindowEvent_suppressed (a : Answers) (s : Desktop) (event : WindowEvent) :
    (s.sendWindowEvent a event).suppressedKeyUp = s.suppressedKeyUp := by
  unfold sendWindowEvent
  split_ifs <;> rfl

theorem sendPointer_suppressed (a : Answers) (s : Desktop) (slot : ℕ) (opcode : UInt16)
    (serial width height : ℕ) :
    (s.sendPointer a slot opcode serial width height).suppressedKeyUp = s.suppressedKeyUp := by
  unfold sendPointer
  dsimp only
  split
  · split
    · rfl
    · exact sendWindowEvent_suppressed a s _
  · rfl

theorem dropSurface_suppressed (s : Desktop) (w : Window) :
    (s.dropSurface w).suppressedKeyUp = s.suppressedKeyUp := by
  unfold dropSurface
  split_ifs <;> rfl

theorem closeWindow_suppressed (a : Answers) (s : Desktop) (slot : ℕ) :
    (s.closeWindow a slot).suppressedKeyUp = s.suppressedKeyUp := by
  unfold closeWindow
  dsimp only
  split_ifs
  · exact (dropSurface_suppressed _ _).trans (sendWindowEvent_suppressed a s _)
  · exact dropSurface_suppressed s _

theorem activateLauncherCell_suppressed (s : Desktop) (cell : ℕ) :
    (s.activateLauncherCell cell).suppressedKeyUp = s.suppressedKeyUp := by
  unfold activateLauncherCell
  split
  · rfl
  · split
    · rfl
    · split <;> rfl

theorem attachSurface_suppressed (a : Answers) (s : Desktop) (slot handle : ℕ) :
    (s.attachSurface a slot handle).suppressedKeyUp = s.suppressedKeyUp := by
  unfold attachSurface
  split_ifs
  · rfl
  · split <;> rfl

theorem message_suppressed (a : Answers) (s : Desktop) (m : WindowMessage) :
    (s.message a m).suppressedKeyUp = s.suppressedKeyUp := by
  unfold message
  split_ifs
  · unfold create
    split_ifs
    · split
      · rfl
      · exact attachSurface_suppressed a _ _ _
    · rfl
  · unfold close
    split
    · rfl
    · dsimp only
      split_ifs
      · exact dropSurface_suppressed s _
      · exact dropSurface_suppressed s _
  · unfold focus
    split <;> rfl
  · unfold move
    split
    · rfl
    · split_ifs <;> rfl
  · rfl
  · rfl

theorem mouseMove_suppressed (a : Answers) (s : Desktop) (e : InputEvent) :
    (s.mouseMove a e).suppressedKeyUp = s.suppressedKeyUp := by
  have hhover : (s.moveCursor e.x e.y).hoverLauncher.suppressedKeyUp = s.suppressedKeyUp := by
    unfold hoverLauncher
    split_ifs
    · split <;> rfl
    · rfl
  refine Eq.trans ?_ hhover
  unfold mouseMove pointerMoved
  split_ifs
  · split <;> rfl
  · split <;> rfl
  · split
    · exact sendPointer_suppressed a _ _ _ _ _ _
    · rfl

theorem pressTitle_cases (a : Answers) (s : Desktop) (slot : ℕ) :
    ∃ raised, raised = { s.raise slot with focusedWindow := (s.table slot).id }
      ∧ (s.pressTitle a slot = raised.closeWindow a slot
        ∨ s.pressTitle a slot = raised.setWindow slot (toggleMaximize (raised.table slot))
        ∨ s.pressTitle a slot = { raised.minimize slot with draggingId := 0, resizingId := 0 }
        ∨ s.pressTitle a slot = { raised with
            draggingId := (s.table slot).id
            dragGrabX := i32 (s.cursorX - i32 (s.table slot).x)
            dragGrabY := i32 (s.cursorY - i32 (s.table slot).y) }) := by
  refine ⟨_, rfl, ?_⟩
  unfold pressTitle
  dsimp only
  split_ifs
  · exact .inl rfl
  · exact .inr (.inl rfl)
  · exact .inr (.inr (.inl rfl))
  · exact .inr (.inr (.inr rfl))

theorem pressTitle_suppressed (a : Answers) (s : Desktop) (slot : ℕ) :
    (s.pressTitle a slot).suppressedKeyUp = s.suppressedKeyUp := by
  obtain ⟨raised, hraised, h⟩ := pressTitle_cases a s slot
  have hs : raised.suppressedKeyUp = s.suppressedKeyUp := by rw [hraised]; rfl
  rcases h with h | h | h | h
  · rw [h, closeWindow_suppressed, hs]
  · rw [h, ← hs]; rfl
  · rw [h, ← hs]; rfl
  · rw [h, ← hs]

theorem press_suppressed (a : Answers) (s : Desktop) (code : UInt16) :
    (s.press a code).suppressedKeyUp = s.suppressedKeyUp := by
  have hactivate : ∀ cell, { s.activateLauncherCell cell with launcherOpen := false }.suppressedKeyUp
      = s.suppressedKeyUp := fun cell => by
    exact activateLauncherCell_suppressed s cell
  unfold press
  split
  · rfl
  · exact hactivate _
  · rfl
  · exact hactivate _
  · rfl
  · unfold pressTaskbarItem
    split
    · rfl
    · split_ifs <;> rfl
  · exact pressTitle_suppressed a s _
  · unfold pressContent
    dsimp only
    split_ifs
    · rfl
    · exact (sendPointer_suppressed a _ _ _ _ _ _).trans rfl
  · rfl

theorem release_suppressed (a : Answers) (s : Desktop) (code : UInt16) :
    (s.release a code).suppressedKeyUp = s.suppressedKeyUp := by
  have hended : { s.snap with draggingId := 0, resizingId := 0 }.suppressedKeyUp
      = s.suppressedKeyUp := by
    unfold snap
    dsimp only
    split_ifs
    · split <;> rfl
    · rfl
  unfold release
  dsimp only
  split_ifs
  · split
    · exact hended
    · exact (sendPointer_suppressed a _ _ _ _ _ _).trans hended
  · exact hended

theorem launcherKey_suppressed (s : Desktop) (code : UInt16) :
    (s.launcherKey code).suppressedKeyUp
      = if code = keyEscape ∨ code = keyEnter ∨ isWorkspaceKey code = true then code
        else s.suppressedKeyUp := by
  unfold launcherKey
  by_cases hescape : code = keyEscape
  · rw [if_pos hescape, if_pos (.inl hescape)]
  rw [if_neg hescape]
  by_cases hup : code = keyUp
  · rw [if_pos hup, if_neg (by rw [hup]; decide)]
  rw [if_neg hup]
  by_cases hdown : code = keyDown
  · rw [if_pos hdown, if_neg (by rw [hdown]; decide)]
  rw [if_neg hdown]
  by_cases henter : code = keyEnter
  · rw [if_pos henter, if_pos (.inr (.inl henter))]
    exact activateLauncherCell_suppressed _ _
  rw [if_neg henter]
  by_cases hworkspace : isWorkspaceKey code = true
  · rw [if_pos hworkspace, if_pos (.inr (.inr hworkspace))]
    exact activateLauncherCell_suppressed _ _
  · rw [if_neg hworkspace, if_neg (by simp [hescape, henter, hworkspace])]

theorem windowKey_suppressed (a : Answers) (s : Desktop) (code : UInt16) :
    (s.windowKey a code).suppressedKeyUp = s.suppressedKeyUp := by
  unfold windowKey
  split
  · rfl
  · split_ifs
    · exact closeWindow_suppressed a s _
    · rfl
    · rfl

theorem cycleFocus_suppressed (s : Desktop) : s.cycleFocus.suppressedKeyUp = s.suppressedKeyUp := by
  unfold cycleFocus
  split <;> rfl

/-- A release that is swallowed is forgotten, a press that is remembered takes its place. -/
theorem key_suppressed (a : Answers) (s : Desktop) (e : InputEvent) :
    (s.key a e).suppressedKeyUp
      = if e.kind = inputKeyUp ∧ s.suppressedKeyUp = e.code then 0
        else if e.kind = inputKeyDown ∧ s.remembers e = true then e.code
        else s.suppressedKeyUp := by
  unfold key remembers
  by_cases hup : e.kind = inputKeyUp ∧ s.suppressedKeyUp = e.code
  · rw [if_pos hup, if_pos hup]
  rw [if_neg hup, if_neg hup]
  by_cases hdown : e.kind = inputKeyDown
  · simp only [hdown, true_and, if_true]
    by_cases hworkspace : workspaceShortcut e = true
    · rw [if_pos hworkspace, if_pos (by simp [hworkspace])]
      rfl
    rw [if_neg hworkspace]
    by_cases hlauncher : launcherShortcut e = true
    · rw [if_pos hlauncher, if_pos (by simp [hlauncher])]
    rw [if_neg hlauncher]
    by_cases hcycle : cycleShortcut e = true
    · rw [if_pos hcycle, if_pos (by simp [hcycle])]
      exact cycleFocus_suppressed _
    rw [if_neg hcycle]
    by_cases hwindow : windowShortcut e = true
    · rw [if_pos hwindow, if_pos (by simp [hwindow])]
      exact windowKey_suppressed a _ _
    rw [if_neg hwindow]
    by_cases hopen : s.launcherOpen = true
    · rw [if_pos hopen, launcherKey_suppressed]
      simp only [hworkspace, hlauncher, hcycle, hwindow, hopen, Bool.false_or, Bool.true_and,
        Bool.or_eq_true, beq_iff_eq, or_assoc]
    · have hnot : ¬(workspaceShortcut e || launcherShortcut e || cycleShortcut e || windowShortcut e
          || (s.launcherOpen && (e.code == keyEscape || e.code == keyEnter
            || isWorkspaceKey e.code))) = true := by
        simp [hworkspace, hlauncher, hcycle, hwindow, hopen]
      split_ifs
      · exact sendWindowEvent_suppressed a s _
      · rfl
  · simp only [hdown, false_and, if_false]
    split_ifs
    all_goals first
      | rfl
      | exact sendWindowEvent_suppressed a s _

theorem step_suppressed (a : Answers) (s : Desktop) (i : Input) :
    (step s (a, i)).suppressedKeyUp = s.suppressedKeyUp
      ∨ ∃ e, i = .event e ∧ (e.kind = inputKeyDown ∨ e.kind = inputKeyUp)
        ∧ step s (a, i) = s.key a e := by
  rcases i with m | e
  · exact .inl (message_suppressed a s m)
  · simp only [step, input]
    split_ifs with h1 h2 h3 h4
    · exact .inl (mouseMove_suppressed a s e)
    · exact .inl ((press_suppressed a _ _).trans rfl)
    · exact .inl ((release_suppressed a _ _).trans rfl)
    · exact .inr ⟨e, rfl, h4, rfl⟩
    · exact .inl rfl

theorem remembers_code_ne_zero (h : s.remembers e = true) :
    e.code ≠ 0 := by
  intro hcode
  have hnot : s.remembers e = false := by
    unfold remembers workspaceShortcut launcherShortcut cycleShortcut windowShortcut
    rw [hcode, show isWorkspaceKey 0 = false by decide, show ((0 : UInt16) == keySpace) = false by
      decide, show ((0 : UInt16) == keyTab) = false by decide,
      show ((0 : UInt16) == keyF4) = false by decide, show ((0 : UInt16) == keyF9) = false by decide,
      show ((0 : UInt16) == keyF10) = false by decide,
      show ((0 : UInt16) == keyEscape) = false by decide,
      show ((0 : UInt16) == keyEnter) = false by decide]
    simp
  rw [hnot] at h
  cases h

/-! ## The journal -/

theorem fresh_remembered : Remembered ({}, fun _ => none) := by
  refine ⟨fun _ _ h => (by cases h), fun k hk => ?_⟩
  refine iff_of_false (fun h => hk h.symm) ?_
  rintro ⟨p, h, -⟩
  cases h

theorem Remembered.down {s' : Desktop}
    (ht : Remembered t) (hkind : e.kind = inputKeyDown) (hup : t.2 e.code = none)
    (hs : s'.suppressedKeyUp = if t.1.remembers e = true then e.code else t.1.suppressedKeyUp) :
    Remembered (s', record t.1 t.2 (a, .event e)) := by
  have hrecord : ∀ k, record t.1 t.2 (a, .event e) k = if k = e.code then some ⟨a, t.1, e, true⟩
      else if t.1.remembers e then (t.2 k).map fun p => { p with latest := false } else t.2 k :=
    fun k => by simp only [record, if_pos hkind]
  constructor
  · intro k p hp
    dsimp only at hp
    rw [hrecord] at hp
    split_ifs at hp with hk
    · cases hp
      exact ⟨hkind, hk.symm⟩
    · obtain ⟨q, hq, rfl⟩ := Option.map_eq_some_iff.1 hp
      exact ht.press k q hq
    · exact ht.press k p hp
  · intro k hk
    dsimp only
    rw [hrecord, hs]
    by_cases hcode : k = e.code
    · rw [if_pos hcode]
      split_ifs with hr
      · exact iff_of_true hcode.symm ⟨_, rfl, hr, rfl⟩
      · refine iff_of_false (fun h => ?_) fun ⟨p, hp, hrem, _⟩ => by cases hp; exact hr hrem
        obtain ⟨p, hp, -⟩ := (ht.suppressed k hk).1 h
        rw [hcode, hup] at hp
        cases hp
    · rw [if_neg hcode]
      split_ifs with hr
      · refine iff_of_false (fun h => hcode h.symm) fun ⟨p, hp, _, hlatest⟩ => ?_
        obtain ⟨q, -, rfl⟩ := Option.map_eq_some_iff.1 hp
        cases hlatest
      · exact ht.suppressed k hk

/-- A release is forgotten. -/
theorem Remembered.up {s' : Desktop}
    (ht : Remembered t) (hkind : e.kind = inputKeyUp)
    (hs : s'.suppressedKeyUp
      = if t.1.suppressedKeyUp = e.code then 0 else t.1.suppressedKeyUp) :
    Remembered (s', record t.1 t.2 (a, .event e)) := by
  have hrecord : ∀ k, record t.1 t.2 (a, .event e) k = if k = e.code then none else t.2 k :=
    fun k => by simp only [record, hkind, true_and]; rfl
  constructor
  · intro k p hp
    dsimp only at hp
    rw [hrecord] at hp
    split_ifs at hp with hk
    exact ht.press k p hp
  · intro k hk
    dsimp only
    rw [hrecord, hs]
    by_cases hcode : k = e.code
    · rw [if_pos hcode]
      refine iff_of_false (fun h => ?_) fun ⟨p, hp, _⟩ => by cases hp
      split_ifs at h with hsup
      · exact hk h.symm
      · exact hsup (h.trans hcode)
    · rw [if_neg hcode]
      split_ifs with hsup
      · refine iff_of_false (fun h => hk h.symm) fun h => hcode ?_
        exact ((ht.suppressed k hk).2 h).symm.trans hsup
      · exact ht.suppressed k hk

theorem Remembered.stroke {i : Answers × Input} (ht : Remembered t)
    (hi : Alternates t i) : Remembered (stroke t i) := by
  obtain ⟨a, m | e⟩ := i
  · refine ⟨ht.press, fun k hk => ?_⟩
    have := message_suppressed a t.1 m
    simp only [Desktop.stroke, step, record]
    rw [this]
    exact ht.suppressed k hk
  have hkept : (step t.1 (a, .event e)).suppressedKeyUp = t.1.suppressedKeyUp →
      e.kind ≠ inputKeyDown → e.kind ≠ inputKeyUp → Remembered (Desktop.stroke t (a, .event e)) := by
    intro hs hd hu
    have hrecord : record t.1 t.2 (a, .event e) = t.2 := by
      simp only [record, if_neg hd, hu, false_and, if_false]
    refine ⟨fun k p hp => ht.press k p ?_, fun k hk => ?_⟩
    · rwa [← hrecord]
    · simp only [Desktop.stroke]
      rw [hrecord, hs]
      exact ht.suppressed k hk
  by_cases hd : e.kind = inputKeyDown
  · refine ht.down hd (hi e rfl hd) ?_
    have hkey : step t.1 (a, .event e) = t.1.key a e := by
      simp only [step, input, hd]
      rfl
    rw [hkey, key_suppressed, if_neg fun h => absurd (hd.symm.trans h.1) (by decide)]
    simp only [hd, true_and]
  by_cases hu : e.kind = inputKeyUp
  · refine ht.up hu ?_
    have hkey : step t.1 (a, .event e) = t.1.key a e := by
      simp only [step, input, hu]
      rfl
    have hdown : ¬(e.kind = inputKeyDown ∧ t.1.remembers e = true) := fun h => hd h.1
    rw [hkey, key_suppressed, if_neg hdown]
    simp only [hu, true_and]
  rcases step_suppressed a t.1 (.event e) with h | ⟨e', he, hkey | hkey, -⟩
  · exact hkept h hd hu
  · cases he
    exact absurd hkey hd
  · cases he
    exact absurd hkey hu

/-! ## Runs -/

theorem sends_release (hkind : e.kind = inputKeyUp) :
    (∃ event, event.opcode = opcodeKey ∧ Sends a s (.event e) event)
      ↔ Receptive a s e ∧ s.suppressedKeyUp ≠ e.code := by
  constructor
  · rintro ⟨event, hk, h⟩
    obtain ⟨_, he, hf, -, hc⟩ := (step_sends_key hk).1 h
    cases he
    exact ⟨⟨hf.workspace, hf.launcher, hf.cycle, hf.window, hf.closed, hf.focused, hc⟩,
      fun h => hf.kept ⟨hkind, h⟩⟩
  · rintro ⟨hr, hsup⟩
    exact ⟨s.keyEvent e, rfl, (step_sends_key rfl).2 ⟨e, rfl, ⟨.inr hkind, fun h => hsup h.2,
      hr.workspace, hr.launcher, hr.cycle, hr.window, hr.closed, hr.focused⟩, rfl, hr.connected⟩⟩

theorem sends_press (hkind : e.kind = inputKeyDown) :
    (∃ event, event.opcode = opcodeKey ∧ Sends a s (.event e) event) ↔ Receptive a s e := by
  constructor
  · rintro ⟨event, hk, h⟩
    obtain ⟨_, he, hf, -, hc⟩ := (step_sends_key hk).1 h
    cases he
    exact ⟨hf.workspace, hf.launcher, hf.cycle, hf.window, hf.closed, hf.focused, hc⟩
  · intro hr
    have hkept : ¬(e.kind = inputKeyUp ∧ s.suppressedKeyUp = e.code) := fun h => by
      rw [hkind] at h
      exact absurd h.1 (by decide)
    exact ⟨s.keyEvent e, rfl, (step_sends_key rfl).2 ⟨e, rfl, ⟨.inl hkind, hkept, hr.workspace,
      hr.launcher, hr.cycle, hr.window, hr.closed, hr.focused⟩, rfl, hr.connected⟩⟩

theorem sends_focused {i : Input} {event : WindowEvent}
    (hk : event.opcode = opcodeKey) (h : Sends a s i event) : event.windowId = s.focusedWindow := by
  obtain ⟨e, -, -, rfl, -⟩ := (step_sends_key hk).1 h
  rfl

theorem whole_iff_matched {i : Answers × Input} (ht : Remembered t) :
    Whole t i ↔ Matched t i := by
  constructor
  · intro hw e he hkind hr
    by_cases hsup : t.1.suppressedKeyUp = e.code
    · by_cases hzero : e.code = 0
      · exact .inr ⟨hzero, hsup.trans hzero⟩
      · obtain ⟨p, hp, hp'⟩ := (ht.suppressed e.code hzero).1 hsup
        exact .inl ⟨p, hp, .inl hp'⟩
    · obtain ⟨event, hk, hsent⟩ := (sends_release hkind).2 ⟨hr, hsup⟩
      rw [← he] at hsent
      obtain ⟨p, hp, event', hk', hsent', hsame⟩ := hw e event he hkind hk hsent
      refine .inl ⟨p, hp, .inr ⟨(sends_press (ht.press _ p hp).1).1 ⟨event', hk', hsent'⟩, ?_⟩⟩
      rw [← sends_focused hk' hsent', hsame, sends_focused hk hsent]
  · intro hm e event he hkind hk hsent
    have hfocus := sends_focused hk hsent
    rw [he] at hsent
    obtain ⟨hr, hsup⟩ := (sends_release hkind).1 ⟨event, hk, hsent⟩
    rcases hm e he hkind hr with ⟨p, hp, ⟨hrem, hlatest⟩ | ⟨hpress, hsame⟩⟩ | ⟨hzero, hnone⟩
    · obtain ⟨-, hcode⟩ := ht.press _ p hp
      have hzero : e.code ≠ 0 := hcode ▸ remembers_code_ne_zero hrem
      exact absurd ((ht.suppressed e.code hzero).2 ⟨p, hp, hrem, hlatest⟩) hsup
    · obtain ⟨event', hk', hsent'⟩ := (sends_press (ht.press _ p hp).1).2 hpress
      exact ⟨p, hp, event', hk', hsent', by rw [sends_focused hk' hsent', hsame, hfocus]⟩
    · exact absurd (hnone.trans hzero.symm) hsup

/-- In a run whose downs and ups alternate no release is left alone just when each that could reach
a window has a press that reached it, or is the one remembered last. -/
theorem half_strokes_iff (inputs : List (Answers × Input)) :
    Machine.Meets stroke (fun t i => Alternates t i ∧ Whole t i) ({}, fun _ => none) inputs
      ↔ Machine.Meets stroke (fun t i => Alternates t i ∧ Matched t i) ({}, fun _ => none) inputs :=
  Machine.meets_congr stroke (I := Remembered)
    (fun _ _ ht => and_congr_right fun _ => whole_iff_matched ht)
    (fun _ _ ht h => ht.stroke h.1) inputs _ fresh_remembered

/-- A window is created. The launcher is opened, the key A pressed in it, the launcher closed, and
the key released. -/
def loneRelease : List (Answers × Input) :=
  [(plainAnswers, .message
      { opcode := opcodeCreate, windowId := 2097152, x := 0, y := 100, width := 200, height := 150 }),
    (plainAnswers, .event { kind := inputKeyDown, code := keySpace, modifiers := inputModCtrl }),
    (plainAnswers, .event { kind := inputKeyUp, code := keySpace, modifiers := inputModCtrl }),
    (plainAnswers, .event { kind := inputKeyDown, code := 0x1E }),
    (plainAnswers, .event { kind := inputKeyDown, code := keyEscape }),
    (plainAnswers, .event { kind := inputKeyUp, code := keyEscape }),
    (plainAnswers, .event { kind := inputKeyUp, code := 0x1E })]

/-- The release goes to the window, which never got the press. -/
theorem lone_release_sent : Machine.Meets stroke Alternates ({}, fun _ => none) loneRelease
    ∧ ¬Machine.Meets stroke Whole ({}, fun _ => none) loneRelease := by
  constructor
  · refine ⟨?_, ?_, ?_, ?_, ?_, ?_, ?_, trivial⟩
    · exact fun e he => by cases he
    all_goals
      intro e he hkind
      cases he
      first
        | exact absurd hkind (by decide)
        | rfl
  · intro h
    have hlast := h.2.2.2.2.2.2.1
    obtain ⟨event, hk, hsent⟩ := (sends_release (a := plainAnswers)
      (s := Machine.run step {} (loneRelease.take 6))
      (e := { kind := inputKeyUp, code := 0x1E }) rfl).2
      ⟨⟨by decide, by decide, by decide, by decide, by decide +kernel, by decide +kernel,
        by decide +kernel⟩, by decide +kernel⟩
    obtain ⟨p, hp, event', hk', hsent', -⟩ := hlast _ event rfl rfl hk hsent
    have hopen : p.state.launcherOpen = true := by
      have : some p = some _ := hp.symm
      cases this
      rfl
    obtain ⟨_, he, hf, -⟩ := (step_sends_key hk').1 hsent'
    rw [hf.closed] at hopen
    cases hopen

end Desktop

end Compositor

end DemonOS
