import DemonOS.Proofs.Xterm.Editor

/-!
# Runs of the editor

Every key keeps the bounds of the document and the cursor, and so do opening a file and all of
xterm's run before it (`Terminal.run_inv`). That the cursor's row stays in the window and that the
editing keys edit as they should is had for as long as each key has `Editor.Room`, and no longer
(`editor_faithful_iff`).
-/

namespace DemonOS.Xterm

namespace Editor

variable {e e' : Editor} {rows : ℕ}

/-! ## The keys that move the cursor -/

theorem Bounded.congr (h : e.Bounded) (hl : e'.lines = e.lines) (hc : e'.lineCount = e.lineCount)
    (hr : e'.cursorRow = e.cursorRow) (hcol : e'.cursorCol = e.cursorCol) : e'.Bounded := by
  refine ⟨fun r => hl ▸ h.closed r, hc ▸ h.count_le, hr ▸ hc ▸ h.row_lt, ?_⟩
  rw [hcol, line, hr, hl]
  exact h.col_le

/-- A key that only moves the cursor. -/
structure Moves (e e' : Editor) (rows : ℕ) : Prop where
  lines_eq : e'.lines = e.lines
  count_eq : e'.lineCount = e.lineCount
  row_lt : e'.cursorRow < e'.lineCount
  col_le : e'.cursorCol ≤ (e'.line e'.cursorRow).length
  shown : 0 < rows → e.Shown rows → e'.Shown rows

theorem Moves.bounded (hm : Moves e e' rows) (h : e.Bounded) : e'.Bounded :=
  ⟨fun r => hm.lines_eq ▸ h.closed r, hm.count_eq ▸ h.count_le, hm.row_lt, hm.col_le⟩

theorem Moves.text_eq (hm : Moves e e' rows) (h : e.Bounded) : e'.text = e.text :=
  text_congr hm.lines_eq hm.count_eq h.row_lt hm.row_lt

theorem moves_self (h : e.Bounded) : Moves e e rows :=
  ⟨rfl, rfl, h.row_lt, h.col_le, fun _ hs => hs⟩

theorem moves_col (h : e.Bounded) {col : ℕ} (hc : col ≤ (e.line e.cursorRow).length) :
    Moves e { e with cursorCol := col } rows :=
  ⟨rfl, rfl, h.row_lt, hc, fun _ hs => hs⟩

theorem scrollUp_moves (hr : e'.cursorRow < e'.lineCount)
    (hc : e'.cursorCol ≤ (e'.line e'.cursorRow).length) (hl : e'.lines = e.lines)
    (hn : e'.lineCount = e.lineCount)
    (hs : e.Shown rows → e'.cursorRow < e'.topRow + rows) : Moves e e'.scrollUp rows := by
  unfold scrollUp
  split_ifs with h
  · exact ⟨hl, hn, hr, hc, fun hrows _ => ⟨le_rfl, Nat.lt_add_of_pos_right hrows⟩⟩
  · exact ⟨hl, hn, hr, hc, fun _ hw => ⟨not_lt.1 h, hs hw⟩⟩

theorem scrollDown_moves (hr : e'.cursorRow < e'.lineCount)
    (hc : e'.cursorCol ≤ (e'.line e'.cursorRow).length) (hl : e'.lines = e.lines)
    (hn : e'.lineCount = e.lineCount) (hs : e.Shown rows → e'.topRow ≤ e'.cursorRow) :
    Moves e (e'.scrollDown rows) rows := by
  unfold scrollDown
  split_ifs with h
  · exact ⟨hl, hn, hr, hc, fun hrows _ =>
      ⟨show e'.cursorRow - rows + 1 ≤ e'.cursorRow by omega,
        show e'.cursorRow < e'.cursorRow - rows + 1 + rows by omega⟩⟩
  · exact ⟨hl, hn, hr, hc, fun _ hw => ⟨hs hw, not_le.1 h⟩⟩

theorem clampCol_col (e : Editor) :
    e.clampCol.cursorCol ≤ (e.clampCol.line e.clampCol.cursorRow).length := by
  unfold clampCol
  split_ifs with h
  · exact le_rfl
  · exact not_lt.1 h

theorem clampCol_same (e : Editor) : e.clampCol.lines = e.lines ∧ e.clampCol.lineCount = e.lineCount
    ∧ e.clampCol.cursorRow = e.cursorRow ∧ e.clampCol.topRow = e.topRow := by
  unfold clampCol
  split_ifs <;> exact ⟨rfl, rfl, rfl, rfl⟩

theorem functionKey_delete (e : Editor) (rows : ℕ) :
    e.functionKey rows keycodeDelete = e.deleteKey := by
  unfold functionKey
  rw [if_neg (fun h => absurd h.1 (by decide)), if_neg (fun h => absurd h.1 (by decide)),
    if_neg (by decide), if_neg (by decide), if_neg (by decide), if_neg (by decide), if_pos rfl]

theorem functionKey_moves (h : e.Bounded) {keycode : UInt32} (hd : keycode ≠ keycodeDelete) :
    Moves e (e.functionKey rows keycode) rows := by
  have hrow := h.row_lt
  unfold functionKey leftKey rightKey
  split_ifs with hup hdown hleft hcol hzero hright hcol hlast hhome hend
  · obtain ⟨hl, hn, hr, ht⟩ := clampCol_same { e with cursorRow := e.cursorRow - 1 }
    refine scrollUp_moves ?_ (clampCol_col _) hl hn fun hs => ?_
    · rw [hr, hn]
      exact lt_of_le_of_lt (Nat.sub_le _ _) hrow
    · rw [hr, ht]
      exact lt_of_le_of_lt (Nat.sub_le _ _) hs.2
  · obtain ⟨hl, hn, hr, ht⟩ := clampCol_same { e with cursorRow := e.cursorRow + 1 }
    refine scrollDown_moves ?_ (clampCol_col _) hl hn fun hs => ?_
    · rw [hr, hn]
      exact hdown.2
    · rw [hr, ht]
      exact hs.1.trans (Nat.le_succ _)
  · exact moves_col h ((Nat.sub_le _ _).trans h.col_le)
  · exact scrollUp_moves (lt_of_le_of_lt (Nat.sub_le _ _) hrow) le_rfl rfl rfl
      fun hs => lt_of_le_of_lt (Nat.sub_le _ _) hs.2
  · exact moves_self h
  · exact moves_col h hcol
  · exact scrollDown_moves hlast (Nat.zero_le _) rfl rfl fun hs => hs.1.trans (Nat.le_succ _)
  · exact moves_self h
  · exact moves_col h (Nat.zero_le _)
  · exact moves_col h le_rfl
  · exact moves_self h

/-! ## One key -/

theorem character_ne_zero {v : UInt32} (h : 0x20 ≤ v ∧ v < 0x7F) : v.toUInt8 ≠ 0 := by
  intro h0
  have hv := congrArg UInt8.toNat h0
  have h1 := UInt32.le_iff_toNat_le.1 h.1
  have h2 := UInt32.lt_iff_toNat_lt.1 h.2
  simp at hv h1 h2
  omega

theorem plainKey_bounded (h : e.Bounded) (rows : ℕ) (key : KeyPress) :
    (e.plainKey rows key).Bounded := by
  unfold plainKey
  split_ifs with henter hback hchar hfun
  · exact enterKey_bounded h
  · exact backspaceKey_bounded h
  · exact characterKey_bounded h (character_ne_zero hchar)
  · rcases eq_or_ne key.keycode keycodeDelete with hd | hd
    · rw [hd, functionKey_delete]
      exact deleteKey_bounded h
    · exact (functionKey_moves h hd).bounded h
  · exact h

theorem backspaceKey_step (h : e.Bounded) (hs : e.Shown rows) :
    (e.backspaceKey.before = e.before.dropLast ∧ e.backspaceKey.after = e.after)
      ∧ e.backspaceKey.Shown rows ↔ Edit.backspace.Room e rows := by
  have hw : e.backspaceKey.Shown rows ↔ ¬ (e.cursorCol = 0 ∧ 0 < e.cursorRow
      ∧ (e.line (e.cursorRow - 1)).length + (e.line e.cursorRow).length < lineCapacity - 1)
      ∨ e.topRow < e.cursorRow := by
    rw [Shown, backspaceKey_row, backspaceKey_top]
    have := hs.2
    split_ifs with hj
    · exact ⟨fun hs' => .inr (by omega), fun hs' => by omega⟩
    · exact ⟨fun _ => .inl hj, fun _ => hs⟩
  rw [hw]
  constructor
  · rintro ⟨hd, hw⟩
    rcases backspaceKey_room hd.1 with h' | h' | h'
    · exact .inl h'
    · exact .inr (.inl h')
    · rw [Edit.Room]
      omega
  · intro hroom
    refine ⟨backspaceKey_split h ?_, ?_⟩ <;> rw [Edit.Room] at hroom <;> omega

theorem plainKey_step (h : e.Bounded) (hs : e.Shown rows) (hrows : 0 < rows) {key : KeyPress}
    (hk : ¬ key.modifiers &&& inputModCtrl ≠ 0) :
    Does key e (e.plainKey rows key) ∧ (e.plainKey rows key).Shown rows ↔ e.Room rows key := by
  unfold Does Room edit plainKey
  split_ifs with henter hback hchar hfun hdel
  · simp only [Option.mem_some_iff, forall_eq', Edit.apply, Edit.Room, Prod.mk.injEq]
    constructor
    · rintro ⟨hd, hw⟩
      have hroom := enterKey_room hd.1
      refine ⟨hroom, ?_⟩
      have := hw.2
      rwa [enterKey_row hroom, enterKey_top] at this
    · rintro ⟨hroom, hw⟩
      refine ⟨enterKey_split h hroom, ?_⟩
      rw [Shown, enterKey_row hroom, enterKey_top]
      exact ⟨hs.1.trans (Nat.le_succ _), hw⟩
  · simp only [Option.mem_some_iff, forall_eq', Edit.apply, Prod.mk.injEq]
    exact backspaceKey_step h hs
  · simp only [Option.mem_some_iff, forall_eq', Edit.apply, Prod.mk.injEq]
    have hne := character_ne_zero hchar
    rw [Shown, characterKey_row, characterKey_top]
    exact ⟨fun hd => characterKey_room h hne hd.1,
      fun hroom => ⟨characterKey_split h hne hroom.1 hroom.2, hs⟩⟩
  · simp only [Option.mem_some_iff, forall_eq', Edit.apply, Prod.mk.injEq]
    rw [hfun.2, functionKey_delete, Shown, deleteKey_row, deleteKey_top]
    exact ⟨fun hd => deleteKey_room h hd.1.2, fun hroom => ⟨deleteKey_split h hroom, hs⟩⟩
  · exact absurd hfun.1 hdel
  · rename_i hval
    have hm := @functionKey_moves _ rows h _ fun hd => hfun ⟨hval, hd⟩
    simp only [Option.not_mem_none, false_imp_iff, implies_true, iff_true]
    exact ⟨hm.text_eq h, hm.shown hrows hs⟩
  · simp only [Option.not_mem_none, false_imp_iff, implies_true, iff_true, true_and]
    exact hs

/-! ## Opening and saving -/

structure SameDocument (e e' : Editor) : Prop where
  lines_eq : e'.lines = e.lines
  count_eq : e'.lineCount = e.lineCount
  row_eq : e'.cursorRow = e.cursorRow
  col_eq : e'.cursorCol = e.cursorCol
  top_eq : e'.topRow = e.topRow

theorem SameDocument.bounded (hd : SameDocument e e') (h : e.Bounded) : e'.Bounded :=
  h.congr hd.lines_eq hd.count_eq hd.row_eq hd.col_eq

theorem SameDocument.shown (hd : SameDocument e e') (h : e.Shown rows) : e'.Shown rows := by
  rwa [Shown, hd.top_eq, hd.row_eq]

theorem SameDocument.text_eq (hd : SameDocument e e') (h : e.Bounded) : e'.text = e.text :=
  text_congr hd.lines_eq hd.count_eq h.row_lt (hd.row_eq ▸ hd.count_eq ▸ h.row_lt)

theorem editorSave_same (e : Editor) (s : Storage) : SameDocument e (e.editorSave s).1 := by
  unfold editorSave
  dsimp only
  split
  · exact ⟨rfl, rfl, rfl, rfl, rfl⟩
  · split
    · exact ⟨rfl, rfl, rfl, rfl, rfl⟩
    · split_ifs <;> exact ⟨rfl, rfl, rfl, rfl, rfl⟩

theorem loadLines_closed : ∀ (bytes : List UInt8) {lines : ℕ → ℕ → UInt8} {line col : ℕ},
    (∀ r, Closed (lines r)) → line ≤ editorMaxLines →
    (∀ r, Closed ((loadLines lines line col bytes).1 r))
      ∧ (loadLines lines line col bytes).2.1 ≤ editorMaxLines
  | [], _, _, _, h, hl => ⟨h, hl⟩
  | c :: rest, lines, line, col, h, hl => by
    rw [loadLines]
    split_ifs with hlt hn hc
    · exact loadLines_closed rest (update_closed h ((h _).update (.inr rfl))) hlt
    · exact loadLines_closed rest (update_closed h ((h _).update (.inl hc))) hl
    · exact loadLines_closed rest h hl
    · exact ⟨h, hl⟩

theorem load_bounded (h : ∀ r, Closed (e.lines r)) (hrow : e.cursorRow = 0)
    (hcol : e.cursorCol = 0) (bytes : List UInt8) : (e.load bytes).Bounded := by
  obtain ⟨hclosed, hle⟩ := @loadLines_closed bytes _ 0 0 h (Nat.zero_le _)
  have hzero : ∀ n, e.cursorCol ≤ n := fun n => hcol ▸ Nat.zero_le n
  unfold load
  dsimp only
  split_ifs with hlt
  · refine ⟨update_closed hclosed ((hclosed _).update (.inr rfl)), hlt, ?_, hzero _⟩
    exact hrow ▸ Nat.succ_pos _
  · refine ⟨hclosed, hle, ?_, hzero _⟩
    rw [hrow]
    exact lt_of_lt_of_le (by decide) (not_lt.1 hlt)

theorem load_cursor (e : Editor) (bytes : List UInt8) : (e.load bytes).cursorRow = e.cursorRow
    ∧ (e.load bytes).topRow = e.topRow ∧ (e.load bytes).active = e.active := by
  unfold load
  dsimp only
  split_ifs <;> exact ⟨rfl, rfl, rfl⟩

theorem editorOpen_eq (e : Editor) (s : Storage) (name : List UInt8) :
    ∃ bytes text isError,
      (e.editorOpen s name).1 = ((e.reset name).load bytes).setStatus text isError := by
  unfold editorOpen
  dsimp only
  split
  · exact ⟨_, _, _, rfl⟩
  · exact ⟨_, _, _, rfl⟩

theorem editorOpen_bounded (h : ∀ r, Closed (e.lines r)) (s : Storage) (name : List UInt8) :
    (e.editorOpen s name).1.Bounded := by
  obtain ⟨bytes, text, isError, he⟩ := editorOpen_eq e s name
  rw [he]
  exact (load_bounded (e := e.reset name) h rfl rfl bytes).congr rfl rfl rfl rfl

theorem editorOpen_shown (e : Editor) (s : Storage) (name : List UInt8) (hrows : 0 < rows) :
    (e.editorOpen s name).1.Shown rows := by
  obtain ⟨bytes, text, isError, he⟩ := editorOpen_eq e s name
  obtain ⟨hr, ht, -⟩ := load_cursor (e.reset name) bytes
  rw [he]
  show ((e.reset name).load bytes).Shown rows
  rw [Shown, hr, ht]
  exact ⟨le_rfl, hrows.trans_eq (Nat.zero_add _).symm⟩

end Editor

namespace Terminal

open Editor

/-! ## Runs -/

/-- What any run keeps: the font's scale, the NULs at the ends of the rows, and the bounds of the
document while it is open. -/
structure Inv (t : Terminal) : Prop where
  scale_min : fontScaleMin ≤ t.fontScale
  scale_max : t.fontScale ≤ fontScaleMax
  closed : ∀ r, Closed (t.editor.lines r)
  bounded : t.editor.active = true → t.editor.Bounded

theorem Inv.rows_pos {t : Terminal} (h : t.Inv) : 0 < t.visibleRowsAtScale := by
  have hmin := h.scale_min
  have hmax := h.scale_max
  unfold fontScaleMin at hmin
  unfold fontScaleMax at hmax
  unfold visibleRowsAtScale gridHeight cellHeight
  exact Nat.div_pos (by omega) (by omega)

theorem editorKey_ctrl (t : Terminal) (s : Storage) {key : KeyPress}
    (hctrl : key.modifiers &&& inputModCtrl ≠ 0) :
    SameDocument t.editor (t.editorKey s key).1.editor := by
  rw [editorKey, if_pos hctrl]
  by_cases hsave : key.keycode = keycodeS
  · rw [if_pos hsave]
    exact editorSave_same _ s
  · rw [if_neg hsave]
    by_cases hquit : key.keycode = keycodeQ
    · rw [if_pos hquit]
      exact ⟨rfl, rfl, rfl, rfl, rfl⟩
    · rw [if_neg hquit]
      exact ⟨rfl, rfl, rfl, rfl, rfl⟩

theorem editorKey_plain (t : Terminal) (s : Storage) {key : KeyPress}
    (hctrl : ¬ key.modifiers &&& inputModCtrl ≠ 0) :
    (t.editorKey s key).1.editor = t.editor.plainKey t.visibleRowsAtScale key := by
  rw [editorKey, if_neg hctrl]
  rfl

theorem editorKey_bounded {t : Terminal} (h : t.editor.Bounded) (s : Storage) (key : KeyPress) :
    (t.editorKey s key).1.editor.Bounded := by
  by_cases hctrl : key.modifiers &&& inputModCtrl ≠ 0
  · exact (editorKey_ctrl t s hctrl).bounded h
  · rw [editorKey_plain t s hctrl]
    exact plainKey_bounded h _ key

theorem editorKey_scale (t : Terminal) (s : Storage) (key : KeyPress) :
    (t.editorKey s key).1.fontScale = t.fontScale := by
  unfold editorKey
  split_ifs <;> rfl

theorem terminalKey_editor (t : Terminal) (key : KeyPress) :
    (t.terminalKey key).editor = t.editor := by
  unfold terminalKey
  split_ifs <;> rfl

theorem terminalKey_scale {t : Terminal} (h : t.Inv) (key : KeyPress) :
    fontScaleMin ≤ (t.terminalKey key).fontScale ∧ (t.terminalKey key).fontScale ≤ fontScaleMax := by
  have hmin := h.scale_min
  have hmax := h.scale_max
  unfold terminalKey
  split_ifs <;> (try dsimp only) <;> omega

theorem step_inv {t : Terminal} (h : t.Inv) (event : Happening) : (t.step event).Inv := by
  rcases event with ⟨key, files⟩ | ⟨name, files⟩ <;> unfold step <;> dsimp only <;>
    split_ifs with hactive
  · have hb := editorKey_bounded (h.bounded hactive) files key
    refine ⟨?_, ?_, hb.closed, fun _ => hb⟩ <;> rw [editorKey_scale]
    · exact h.scale_min
    · exact h.scale_max
  · obtain ⟨hmin, hmax⟩ := terminalKey_scale h key
    refine ⟨hmin, hmax, ?_, ?_⟩ <;> rw [terminalKey_editor]
    · exact h.closed
    · exact h.bounded
  · exact h
  · have hb := editorOpen_bounded h.closed files name
    exact ⟨h.scale_min, h.scale_max, hb.closed, fun _ => hb⟩

theorem run_inv (events : List Happening) : (run events).Inv := by
  have hstart : ({} : Terminal).Inv := ⟨by decide, by decide, fun _ => rfl, by simp⟩
  unfold run
  generalize ({} : Terminal) = t at hstart
  induction events generalizing t with
  | nil => exact hstart
  | cons event events ih => exact ih _ (step_inv hstart event)

def opened (t : Terminal) (files : Storage) (name : List UInt8) : Terminal :=
  t.withEditor (t.editor.editorOpen files name).1

def typeKeys (t : Terminal) (keys : List (KeyPress × Storage)) : Terminal :=
  keys.foldl (fun t pressed => (t.editorKey pressed.2 pressed.1).1) t

structure InBounds (t : Terminal) : Prop where
  count_pos : 1 ≤ t.editor.lineCount
  count_le : t.editor.lineCount ≤ editorMaxLines
  length_le : ∀ r < t.editor.lineCount, (t.editor.line r).length ≤ lineCapacity - 1
  row_lt : t.editor.cursorRow < t.editor.lineCount
  col_le : t.editor.cursorCol ≤ (t.editor.line t.editor.cursorRow).length

/-- The bounds, and the cursor's row in the window. -/
structure Sound (t : Terminal) : Prop extends InBounds t where
  shown : t.editor.Shown t.visibleRowsAtScale

/-- Every state of a run of keys is sound, and every key does what it stands for. -/
def Faithful (t : Terminal) : List (KeyPress × Storage) → Prop
  | [] => t.Sound
  | (key, files) :: rest =>
    t.Sound ∧ Does key t.editor (t.editorKey files key).1.editor
      ∧ (t.editorKey files key).1.Faithful rest

def HasRoom (t : Terminal) : List (KeyPress × Storage) → Prop
  | [] => True
  | (key, files) :: rest =>
    t.editor.Room t.visibleRowsAtScale key ∧ (t.editorKey files key).1.HasRoom rest

theorem inBounds {t : Terminal} (h : t.editor.Bounded) : t.InBounds :=
  ⟨(Nat.zero_le _).trans_lt h.row_lt, h.count_le, fun r _ => (h.closed r).length_le, h.row_lt,
    h.col_le⟩

theorem sound_iff {t : Terminal} (h : t.editor.Bounded) :
    t.Sound ↔ t.editor.Shown t.visibleRowsAtScale :=
  ⟨Sound.shown, fun hs => ⟨inBounds h, hs⟩⟩

theorem editorKey_step {t : Terminal} (h : t.editor.Bounded)
    (hs : t.editor.Shown t.visibleRowsAtScale) (hrows : 0 < t.visibleRowsAtScale) (s : Storage)
    (key : KeyPress) :
    Does key t.editor (t.editorKey s key).1.editor
      ∧ (t.editorKey s key).1.editor.Shown t.visibleRowsAtScale
      ↔ t.editor.Room t.visibleRowsAtScale key := by
  by_cases hctrl : key.modifiers &&& inputModCtrl ≠ 0
  · have hsame := editorKey_ctrl t s hctrl
    have hnone : edit key = none := by rw [edit, if_pos hctrl]
    simp only [Does, Room, hnone, Option.not_mem_none, false_imp_iff, implies_true, iff_true]
    exact ⟨hsame.text_eq h, hsame.shown hs⟩
  · rw [editorKey_plain t s hctrl]
    exact plainKey_step h hs hrows hctrl

theorem faithful_iff : ∀ (keys : List (KeyPress × Storage)) {t : Terminal}, t.editor.Bounded →
    t.editor.Shown t.visibleRowsAtScale → 0 < t.visibleRowsAtScale →
    (t.Faithful keys ↔ t.HasRoom keys)
  | [], t, h, hs, _ => by
    rw [Faithful, HasRoom, sound_iff h]
    exact iff_true_intro hs
  | (key, files) :: rest, t, h, hs, hrows => by
    have hstep := editorKey_step h hs hrows files key
    have hscale : (t.editorKey files key).1.visibleRowsAtScale = t.visibleRowsAtScale := by
      rw [visibleRowsAtScale, editorKey_scale, visibleRowsAtScale]
    have hb := editorKey_bounded h files key
    rw [Faithful, HasRoom, sound_iff h]
    constructor
    · rintro ⟨-, hdoes, hrest⟩
      have hshown : (t.editorKey files key).1.Sound := by
        rcases rest with _ | ⟨_, _⟩
        · exact hrest
        · exact hrest.1
      have hw := hshown.shown
      refine ⟨hstep.1 ⟨hdoes, hscale ▸ hw⟩, ?_⟩
      exact (faithful_iff rest hb hw (hscale ▸ hrows)).1 hrest
    · rintro ⟨hroom, hrest⟩
      obtain ⟨hdoes, hw⟩ := hstep.2 hroom
      refine ⟨hs, hdoes, ?_⟩
      exact (faithful_iff rest hb (hscale.symm ▸ hw) (hscale.symm ▸ hrows)).2 hrest

theorem typeKeys_bounded : ∀ (keys : List (KeyPress × Storage)) {t : Terminal},
    t.editor.Bounded → (t.typeKeys keys).editor.Bounded
  | [], _, h => h
  | (key, files) :: rest, _, h => typeKeys_bounded rest (editorKey_bounded h files key)

/-- After any run of xterm a file is opened in the editor and keys are pressed. The number of rows,
their lengths and the cursor's row and column keep their bounds whatever the keys are. The cursor is
in the window in every state and every key edits the text as it should exactly where every key has
room. -/
theorem editor_faithful_iff (events : List Happening) (files : Storage) (name : List UInt8)
    (keys : List (KeyPress × Storage)) :
    (((run events).opened files name).typeKeys keys).InBounds
      ∧ (((run events).opened files name).Faithful keys
        ↔ ((run events).opened files name).HasRoom keys) := by
  have hinv := run_inv events
  have hb := editorOpen_bounded hinv.closed files name
  exact ⟨inBounds (typeKeys_bounded keys hb),
    faithful_iff keys hb (editorOpen_shown _ files name hinv.rows_pos) hinv.rows_pos⟩

theorem Faithful.sound_end : ∀ {keys : List (KeyPress × Storage)} {t : Terminal},
    t.Faithful keys → (t.typeKeys keys).Sound
  | [], _, h => h
  | (_, _) :: rest, _, h => @Faithful.sound_end rest _ h.2.2

/-- No file yet, and a process that may open the storage service. -/
def freshStorage : Storage where
  pid := 1
  objects := { caps := .capabilitiesInit, surfaces := {} }
  files := {}

/-- A new file, and Enter pressed 22 times: the cursor is on row 22, the window on rows 0 to 21. -/
theorem enter_leaves_window : ¬ (({} : Terminal).opened freshStorage [0x61]).Faithful
    (List.replicate 22 ({ value := 0x0A }, freshStorage)) := by
  intro h
  exact absurd h.sound_end.shown.2 (by decide +kernel)

end Terminal

end DemonOS.Xterm
