import DemonOS.Proofs.Compositor.Focus

/-!
# The surface handles of the compositor

A handle comes in with a CREATE message. It is closed, or a window of the table holds it: every
branch moves one count to the other, or leaves both as they are. The exception is a CREATE that is
turned down before its window has a slot, for its geometry, for an id that is in use or for a full
table: there the handle is forgotten. So the two counts make up what came in, at every point of a
run, just when no CREATE that carries a surface is turned down (`handles_conserved_iff`).
-/

namespace DemonOS

namespace Compositor

namespace Desktop

def carriedBy (h : ℕ) : Input → ℕ
  | .message m => if m.opcode = opcodeCreate ∧ m.surfaceId.toNat = h then 1 else 0
  | .event _ => 0

def carried (inputs : List (Answers × Input)) (h : ℕ) : ℕ :=
  (inputs.map fun i => carriedBy h i.2).sum

def closed (s : Desktop) (h : ℕ) : ℕ := s.calls.count (.handleClose h)

def holds (h : ℕ) (w : Window) : ℕ := if w.inUse = true ∧ w.surfaceId = h then 1 else 0

def held (s : Desktop) (h : ℕ) : ℕ := Table.total windowLimit (holds h) s.table

def ledger (s : Desktop) (h : ℕ) : ℕ := s.closed h + s.held h

def TakesSurface (s : Desktop) : Input → Prop
  | .message m => m.opcode = opcodeCreate → m.surfaceId ≠ 0 →
      s.createAccepted m = true ∧ (findFreeSlot s.table).isSome = true
  | .event _ => True

/-! ## What moves nothing -/

structure SameBooks (s s' : Desktop) : Prop where
  holds : ∀ i h, holds h (s'.table i) = Desktop.holds h (s.table i)
  closed : ∀ h, s'.closed h = s.closed h

theorem SameBooks.ledger_eq {s s' : Desktop} (h : s.SameBooks s') (k : ℕ) :
    s'.ledger k = s.ledger k := by
  unfold ledger held Table.total
  rw [h.closed]
  simp only [h.holds]

theorem SameBooks.refl (s : Desktop) : s.SameBooks s := ⟨fun _ _ => rfl, fun _ => rfl⟩

theorem SameBooks.trans {s s' s'' : Desktop} (h : s.SameBooks s') (h' : s'.SameBooks s'') :
    s.SameBooks s'' :=
  ⟨fun i k => (h'.holds i k).trans (h.holds i k), fun k => (h'.closed k).trans (h.closed k)⟩

theorem SameBooks.of_eq {s s' : Desktop} (ht : s'.table = s.table) (hc : s'.calls = s.calls) :
    s.SameBooks s' :=
  ⟨fun i h => by rw [ht], fun h => by rw [Desktop.closed, hc, Desktop.closed]⟩

theorem SameBooks.congr {s s' t t' : Desktop} (h : t.SameBooks t') (hs : t.table = s.table)
    (hsc : t.calls = s.calls) (hs' : s'.table = t'.table) (hsc' : s'.calls = t'.calls) :
    s.SameBooks s' :=
  ((SameBooks.of_eq hs hsc).trans h).trans (.of_eq hs' hsc')

theorem SameBooks.setWindow {s : Desktop} {slot : ℕ} {w : Window}
    (hu : w.inUse = (s.table slot).inUse) (hs : w.surfaceId = (s.table slot).surfaceId) :
    s.SameBooks (s.setWindow slot w) := by
  refine ⟨fun i h => ?_, fun _ => rfl⟩
  simp only [Desktop.setWindow, Function.update_apply]
  split_ifs with hi
  · subst hi
    simp only [Desktop.holds, hu, hs]
  · rfl

theorem place_sameBooks (s : Desktop) (slot : ℕ) (geometry : ℕ × ℕ × ℕ × ℕ) :
    s.SameBooks (s.setWindow slot ((s.table slot).place geometry)) :=
  .setWindow rfl rfl

theorem SameBooks.call {s : Desktop} {c : Call} (h : ∀ k, c ≠ .handleClose k) :
    s.SameBooks (s.call c) := by
  refine ⟨fun _ _ => rfl, fun k => ?_⟩
  simp only [Desktop.closed, Desktop.call, List.count_append]
  rw [List.count_singleton, if_neg (by simpa using h k)]
  rfl

theorem raise_sameBooks (s : Desktop) (slot : ℕ) : s.SameBooks (s.raise slot) :=
  (@SameBooks.setWindow s slot { s.table slot with z := s.nextZ } rfl rfl).congr rfl rfl rfl rfl

theorem restore_sameBooks (s : Desktop) (slot : ℕ) : s.SameBooks (s.restore slot) :=
  ((@SameBooks.setWindow s slot { s.table slot with minimized := false } rfl rfl).trans (raise_sameBooks _ slot)).congr rfl rfl rfl rfl

theorem minimize_sameBooks (s : Desktop) (slot : ℕ) : s.SameBooks (s.minimize slot) :=
  (@SameBooks.setWindow s slot { s.table slot with minimized := true } rfl rfl).congr rfl rfl rfl rfl

theorem sendWindowEvent_sameBooks (a : Answers) (s : Desktop) (event : WindowEvent) :
    s.SameBooks (s.sendWindowEvent a event) := by
  unfold sendWindowEvent
  split_ifs
  · exact .refl s
  · exact .call fun _ => by simp

theorem sendPointer_sameBooks (a : Answers) (s : Desktop) (slot : ℕ) (opcode : UInt16)
    (serial width height : ℕ) :
    s.SameBooks (s.sendPointer a slot opcode serial width height) := by
  unfold sendPointer
  dsimp only
  split
  · split
    · exact .refl s
    · exact sendWindowEvent_sameBooks a s _
  · exact .refl s

theorem activateLauncherCell_sameBooks (s : Desktop) (cell : ℕ) :
    s.SameBooks (s.activateLauncherCell cell) := by
  unfold activateLauncherCell
  split
  · exact .refl s
  · split
    · exact (restore_sameBooks s _).congr rfl rfl rfl rfl
    · split
      · exact .refl s
      · exact .call fun _ => by simp

theorem toggleMaximize_sameBooks (s : Desktop) (slot : ℕ) :
    s.SameBooks (s.setWindow slot (toggleMaximize (s.table slot))) := by
  have h : (toggleMaximize (s.table slot)).surfaceId = (s.table slot).surfaceId := by
    unfold toggleMaximize
    split_ifs <;> rfl
  exact .setWindow (toggleMaximize_identity _).1 h

theorem draggedTo_handle (w : Window) (x y : ℤ) :
    (draggedTo w x y).inUse = w.inUse ∧ (draggedTo w x y).surfaceId = w.surfaceId := by
  unfold draggedTo
  exact ⟨rfl, rfl⟩

theorem resizedTo_handle (w : Window) (width height : ℤ) :
    (resizedTo w width height).inUse = w.inUse
      ∧ (resizedTo w width height).surfaceId = w.surfaceId := by
  unfold resizedTo
  exact ⟨rfl, rfl⟩

theorem mouseMove_sameBooks (a : Answers) (s : Desktop) (e : InputEvent) :
    s.SameBooks (s.mouseMove a e) := by
  have hhover : s.SameBooks (s.moveCursor e.x e.y).hoverLauncher := by
    unfold hoverLauncher
    split_ifs
    · split <;> exact .of_eq rfl rfl
    · exact .of_eq rfl rfl
  refine hhover.trans ?_
  unfold mouseMove pointerMoved
  split_ifs
  · split
    · rename_i slot _
      unfold dragTo
      refine SameBooks.congr (@SameBooks.setWindow _ slot _ ?_ ?_) rfl rfl rfl rfl
      · rw [(draggedTo_handle _ _ _).1]
        split_ifs <;> rfl
      · rw [(draggedTo_handle _ _ _).2]
        split_ifs <;> rfl
    · exact .of_eq rfl rfl
  · split
    · exact .setWindow (resizedTo_handle _ _ _).1 (resizedTo_handle _ _ _).2
    · exact .of_eq rfl rfl
  · split
    · exact sendPointer_sameBooks a _ _ _ _ _ _
    · exact .refl _

theorem release_sameBooks (a : Answers) (s : Desktop) (code : UInt16) :
    s.SameBooks (s.release a code) := by
  have hsnap : s.SameBooks s.snap := by
    unfold snap
    dsimp only
    split_ifs
    · split
      · exact .refl s
      · exact .setWindow rfl rfl
    · exact .refl s
  have hended : s.SameBooks { s.snap with draggingId := 0, resizingId := 0 } :=
    hsnap.congr rfl rfl rfl rfl
  unfold release
  dsimp only
  split_ifs
  · split
    · exact hended
    · exact hended.trans (sendPointer_sameBooks a _ _ _ _ _ _)
  · exact hended

theorem launcherKey_sameBooks (s : Desktop) (code : UInt16) : s.SameBooks (s.launcherKey code) := by
  unfold launcherKey
  dsimp only
  split_ifs
  · exact .of_eq rfl rfl
  · exact .of_eq rfl rfl
  · exact .of_eq rfl rfl
  · exact (activateLauncherCell_sameBooks { s with suppressedKeyUp := code } _).congr rfl rfl rfl rfl
  · exact (activateLauncherCell_sameBooks { s with
      suppressedKeyUp := code, launcherSelection := (code - keyWorkspace1).toNat } _).congr
        rfl rfl rfl rfl
  · exact .refl s

theorem ledger_setWindow (s : Desktop) {slot : ℕ} (hlt : slot < windowLimit) (w : Window) (h : ℕ) :
    (s.setWindow slot w).ledger h + holds h (s.table slot) = s.ledger h + holds h w := by
  have := Table.total_update hlt (holds h) s.table w
  unfold ledger held
  rw [Nat.add_assoc, Nat.add_assoc]
  exact congrArg (s.closed h + ·) this

/-! ## What leaves the table -/

theorem drop_ledger {s : Desktop} {slot h : ℕ} (hlt : slot < windowLimit)
    (hu : (s.table slot).inUse = true) (hh : h ≠ 0) :
    ((s.dropSurface (s.table slot)).setWindow slot .empty).ledger h = s.ledger h := by
  have hheld := Table.total_update hlt (holds h) s.table .empty
  have hempty : holds h .empty = 0 := by simp [holds, Window.empty]
  have hslot : holds h (s.table slot) = if (s.table slot).surfaceId = h then 1 else 0 := by
    simp [holds, hu]
  have hclosed : ((s.dropSurface (s.table slot)).setWindow slot .empty).closed h
      = s.closed h + if (s.table slot).surfaceId = h then 1 else 0 := by
    unfold dropSurface
    split_ifs with h0 hs hs
    · simp [closed, setWindow, call, hs, List.count_append]
    · simp [closed, setWindow, call, hs, List.count_append]
    · rw [not_not] at h0
      exact absurd (hs.symm.trans h0) hh
    · rfl
  have htable : ((s.dropSurface (s.table slot)).setWindow slot .empty).table
      = Function.update s.table slot .empty := by
    simp only [setWindow, dropSurface_table]
  unfold ledger held
  rw [hclosed, htable]
  rw [hempty, hslot] at hheld
  omega

theorem closeWindow_ledger {a : Answers} {s : Desktop} {slot h : ℕ} (hlt : slot < windowLimit)
    (hu : (s.table slot).inUse = true) (hh : h ≠ 0) :
    (s.closeWindow a slot).ledger h = s.ledger h := by
  have htold : ∀ event, (((s.sendWindowEvent a event).dropSurface (s.table slot)).setWindow slot
      .empty).ledger h = s.ledger h := by
    intro event
    have htable : (s.sendWindowEvent a event).table = s.table := sendWindowEvent_table a s event
    have := drop_ledger (s := s.sendWindowEvent a event) hlt (by rw [htable, hu]) hh
    rw [htable] at this
    exact this.trans ((sendWindowEvent_sameBooks a s event).ledger_eq h)
  unfold closeWindow
  dsimp only
  split_ifs
  · exact htold _
  · exact drop_ledger hlt hu hh

theorem press_ledger {a : Answers} {s : Desktop} (code : UInt16) {h : ℕ} (hh : h ≠ 0) :
    (s.press a code).ledger h = s.ledger h := by
  unfold press
  split
  · exact (SameBooks.of_eq rfl rfl).ledger_eq h
  · exact ((activateLauncherCell_sameBooks s _).congr rfl rfl rfl rfl).ledger_eq h
  · exact (SameBooks.of_eq rfl rfl).ledger_eq h
  · exact ((activateLauncherCell_sameBooks s _).congr rfl rfl rfl rfl).ledger_eq h
  · exact (SameBooks.of_eq rfl rfl).ledger_eq h
  · unfold pressTaskbarItem
    split
    · rfl
    · split_ifs
      · exact (minimize_sameBooks s _).ledger_eq h
      · exact ((restore_sameBooks s _).congr rfl rfl rfl rfl).ledger_eq h
  · rename_i slot htarget
    obtain ⟨hlt, hp⟩ := topmost_eq_some (pressTarget_title htarget)
    simp only [Window.decorationHit, Bool.and_eq_true] at hp
    have hu := (Window.shown_iff.1 hp.1.1.1.1.1).1
    set raised := { s.raise slot with focusedWindow := (s.table slot).id } with hraised
    have hbooks : s.SameBooks raised := (raise_sameBooks s slot).congr rfl rfl rfl rfl
    unfold pressTitle
    dsimp only
    split_ifs
    · refine Eq.trans ?_ (hbooks.ledger_eq h)
      exact closeWindow_ledger hlt (by simp [raise, setWindow, hu]) hh
    · exact (hbooks.trans (toggleMaximize_sameBooks raised slot)).ledger_eq h
    · exact ((hbooks.trans (minimize_sameBooks raised slot)).congr rfl rfl rfl rfl).ledger_eq h
    · exact (hbooks.congr rfl rfl rfl rfl).ledger_eq h
  · rename_i slot htarget
    set raised := { s.raise slot with focusedWindow := (s.table slot).id } with hraised
    have hbooks : s.SameBooks raised := (raise_sameBooks s slot).congr rfl rfl rfl rfl
    unfold pressContent
    dsimp only
    split_ifs
    · exact (hbooks.congr rfl rfl rfl rfl).ledger_eq h
    · exact (hbooks.trans (sendPointer_sameBooks a raised _ _ _ _ _)).ledger_eq h
  · rfl

theorem key_ledger {a : Answers} {s : Desktop} (e : InputEvent) {h : ℕ} (hh : h ≠ 0) :
    (s.key a e).ledger h = s.ledger h := by
  unfold key
  dsimp only
  split_ifs
  · exact (SameBooks.of_eq rfl rfl).ledger_eq h
  · exact (SameBooks.of_eq rfl rfl).ledger_eq h
  · rfl
  · exact (SameBooks.of_eq rfl rfl).ledger_eq h
  · rfl
  · unfold cycleFocus
    split
    · exact (SameBooks.of_eq rfl rfl).ledger_eq h
    · exact ((restore_sameBooks { s with suppressedKeyUp := e.code } _).congr
        rfl rfl rfl rfl).ledger_eq h
  · rfl
  · unfold windowKey
    split
    · exact (SameBooks.of_eq rfl rfl).ledger_eq h
    · rename_i slot hslot
      obtain ⟨hlt, hu, -⟩ := findSlot_eq_some hslot
      split_ifs
      · exact (closeWindow_ledger (s := { s with suppressedKeyUp := e.code }) hlt hu hh).trans
          ((SameBooks.of_eq rfl rfl).ledger_eq h)
      · exact ((minimize_sameBooks { s with suppressedKeyUp := e.code } slot).congr
          rfl rfl rfl rfl).ledger_eq h
      · exact ((toggleMaximize_sameBooks { s with suppressedKeyUp := e.code } slot).congr
          rfl rfl rfl rfl).ledger_eq h
  · rfl
  · exact (launcherKey_sameBooks s e.code).ledger_eq h
  · rfl
  · exact (sendWindowEvent_sameBooks a s _).ledger_eq h
  · rfl

theorem input_ledger {a : Answers} {s : Desktop} (e : InputEvent) {h : ℕ} (hh : h ≠ 0) :
    (s.input a e).ledger h = s.ledger h := by
  have hcursor : (s.moveCursor e.x e.y).ledger h = s.ledger h :=
    (SameBooks.of_eq rfl rfl).ledger_eq h
  unfold input
  split_ifs
  · exact (mouseMove_sameBooks a s e).ledger_eq h
  · exact (press_ledger e.code hh).trans hcursor
  · exact ((release_sameBooks a (s.moveCursor e.x e.y) e.code).ledger_eq h).trans hcursor
  · exact key_ledger e hh
  · rfl

/-! ## Messages -/

theorem carriedBy_of_ne {m : WindowMessage} {h : ℕ} (hm : m.opcode ≠ opcodeCreate) :
    carriedBy h (.message m) = 0 := if_neg fun hc => hm hc.1

theorem attachSurface_ledger {a : Answers} {s : Desktop} {slot handle h : ℕ}
    (hlt : slot < windowLimit) (hu : (s.table slot).inUse = true)
    (hnone : (s.table slot).surfaceId = 0) (hh : h ≠ 0) :
    (s.attachSurface a slot handle).ledger h = s.ledger h + if handle = h then 1 else 0 := by
  have hold : holds h (s.table slot) = 0 := if_neg fun hc => hh (hc.2.symm.trans hnone)
  unfold attachSurface
  split_ifs with h0 hk hk
  · exact absurd (hk.symm.trans h0) hh
  · rfl
  all_goals split
  · refine Nat.add_right_cancel ((ledger_setWindow s hlt _ h).trans ?_)
    rw [hold]
    simp [holds, hu, hk]
  · simp only [ledger, closed, held, call, List.count_append, hk, List.count_singleton_self]
    omega
  · refine Nat.add_right_cancel ((ledger_setWindow s hlt _ h).trans ?_)
    rw [hold]
    simp [holds, hu, hk]
  · simp [ledger, closed, held, call, List.count_append, hk]

theorem create_ledger {a : Answers} {s : Desktop} {m : WindowMessage} {h : ℕ} (hh : h ≠ 0)
    (hacc : s.createAccepted m = true) {slot : ℕ} (hfree : findFreeSlot s.table = some slot) :
    (s.create a m).ledger h = s.ledger h + if m.surfaceId.toNat = h then 1 else 0 := by
  obtain ⟨hlt, hunused⟩ := findFreeSlot_eq_some hfree
  have hplaced : { s.setWindow slot (s.createdWindow m) with nextZ := add32 s.nextZ 1 }.ledger h
      = s.ledger h := by
    refine Nat.add_right_cancel ((ledger_setWindow s hlt (s.createdWindow m) h).trans ?_)
    simp [holds, hunused, createdWindow, Ne.symm hh]
  unfold create
  rw [if_pos hacc, hfree]
  dsimp only
  rw [← hplaced]
  refine ((SameBooks.of_eq rfl rfl).ledger_eq h).trans (attachSurface_ledger hlt ?_ ?_ hh)
  · simp [setWindow, createdWindow]
  · simp [setWindow, createdWindow]

theorem close_ledger {s : Desktop} (m : WindowMessage) {h : ℕ} (hh : h ≠ 0) :
    (s.close m).ledger h = s.ledger h := by
  unfold close
  split
  · rfl
  · rename_i slot hslot
    obtain ⟨hlt, hu, -⟩ := findSlot_eq_some hslot
    dsimp only
    split_ifs
    · exact drop_ledger hlt hu hh
    · exact drop_ledger hlt hu hh

theorem message_ledger_iff {a : Answers} {s : Desktop} {m : WindowMessage} :
    (∀ h : { h : ℕ // h ≠ 0 }, (s.message a m).ledger h = s.ledger h + carriedBy h (.message m))
      ↔ s.TakesSurface (.message m) := by
  unfold message TakesSurface
  by_cases hcreate : m.opcode = opcodeCreate
  · simp only [hcreate, if_true, true_implies]
    have hcarried : ∀ h, carriedBy h (.message m) = if m.surfaceId.toNat = h then 1 else 0 :=
      fun h => by simp [carriedBy, hcreate]
    simp only [hcarried]
    constructor
    · intro hledger hs
      have h0 : m.surfaceId.toNat ≠ 0 := fun h => hs (UInt32.toNat_inj.1 h)
      have h := hledger ⟨m.surfaceId.toNat, h0⟩
      by_contra hnot
      have hsame : s.create a m = s := by
        unfold create
        split_ifs with hacc
        · rcases hfree : findFreeSlot s.table with _ | slot
          · rfl
          · exact absurd ⟨hacc, by rw [hfree]; rfl⟩ hnot
        · rfl
      rw [hsame, if_pos rfl] at h
      omega
    · rintro htakes ⟨h, hh⟩
      by_cases hs : m.surfaceId = 0
      · have hne : m.surfaceId.toNat ≠ h := by
          rw [hs]
          exact Ne.symm hh
        rw [if_neg hne]
        unfold create
        split_ifs with hacc
        · rcases hfree : findFreeSlot s.table with _ | slot
          · rfl
          · have := create_ledger (a := a) hh hacc hfree
            unfold create at this
            rwa [if_pos hacc, hfree, if_neg hne] at this
        · rfl
      · obtain ⟨hacc, hfree⟩ := htakes hs
        obtain ⟨slot, hslot⟩ := Option.isSome_iff_exists.1 hfree
        exact create_ledger hh hacc hslot
  rw [if_neg hcreate]
  refine iff_of_true (fun ⟨h, hh⟩ => ?_) fun hc => absurd hc hcreate
  rw [carriedBy_of_ne hcreate, Nat.add_zero]
  split_ifs
  · exact close_ledger m hh
  · unfold focus
    split
    · rfl
    · exact (restore_sameBooks s _).ledger_eq h
  · unfold move
    split
    · rfl
    · split_ifs
      · exact (place_sameBooks s _ _).ledger_eq h
      · rfl
  · exact (SameBooks.of_eq rfl rfl).ledger_eq h
  · rfl

/-! ## Runs -/

/-- At every point of the run, every handle that has come in was closed or is held, as often as it
came in. -/
def HandlesConserved (inputs : List (Answers × Input)) : Prop :=
  ∀ before, before <+: inputs → ∀ h ≠ 0, carried before h
    = (Machine.run step {} before).closed h + (Machine.run step {} before).held h

/-- The handles that come in are the closed and the held ones just when every CREATE of the run that
carries a surface is accepted and finds a slot. -/
theorem handles_conserved_iff (inputs : List (Answers × Input)) :
    HandlesConserved inputs
      ↔ Machine.Meets step (fun s i => s.TakesSurface i.2) {} inputs := by
  have hcounts := Machine.counts_iff step (fun s (h : { h : ℕ // h ≠ 0 }) => s.ledger h)
    (fun i h => carriedBy h i.2) inputs {}
  have hfresh : ∀ h : { h : ℕ // h ≠ 0 }, ({} : Desktop).ledger h = 0 := fun ⟨h, hh⟩ => by
    refine Nat.add_eq_zero_iff.2 ⟨rfl, Table.total_eq_zero fun i _ => ?_⟩
    simp [holds, Window.empty]
  have hsteps : Machine.Meets step (fun s i => ∀ h : { h : ℕ // h ≠ 0 },
        (step s i).ledger h = s.ledger h + carriedBy h i.2) {} inputs
      ↔ Machine.Meets step (fun s i => s.TakesSurface i.2) {} inputs := by
    refine Machine.meets_congr step (I := fun _ => True) (fun s i _ => ?_) (fun _ _ _ _ => trivial)
      inputs {} trivial
    rcases i with ⟨a, m | e⟩
    · exact message_ledger_iff
    · exact iff_of_true (fun ⟨h, hh⟩ => input_ledger e hh) trivial
  rw [← hsteps, ← hcounts]
  unfold HandlesConserved
  constructor
  · intro h before hbefore k
    rw [hfresh, Nat.zero_add]
    exact (h before hbefore k k.2).symm
  · intro h before hbefore k hk
    have := h before hbefore ⟨k, hk⟩
    rw [hfresh, Nat.zero_add] at this
    exact this.symm

def leftOfScreen : List (Answers × Input) :=
  [(plainAnswers, .message
    { opcode := opcodeCreate, windowId := 2097152, x := -1, y := 100, width := 200, height := 150
      surfaceId := 257 })]

/-- The handle came in, and it is neither closed nor held. -/
theorem handle_forgotten : carried leftOfScreen 257 = 1
    ∧ (Machine.run step {} leftOfScreen).closed 257 = 0
    ∧ (Machine.run step {} leftOfScreen).held 257 = 0 ∧ ¬HandlesConserved leftOfScreen := by
  have hrun : carried leftOfScreen 257 = 1 ∧ (Machine.run step {} leftOfScreen).closed 257 = 0
      ∧ (Machine.run step {} leftOfScreen).held 257 = 0 := by decide +kernel
  refine ⟨hrun.1, hrun.2.1, hrun.2.2, fun h => ?_⟩
  have := h leftOfScreen (List.prefix_refl _) 257 (by decide)
  rw [hrun.1, hrun.2.1, hrun.2.2] at this
  cases this

end Desktop

end Compositor

end DemonOS
