import DemonOS.Proofs.Xterm.Strings

/-!
# What the editor's keys do

The document is one text, its rows joined by newlines, and the cursor splits it in two
(`Editor.before`, `Editor.after`). The bounds on the rows and the cursor hold after any keys
(`Editor.Bounded`). An editing key makes the change it stands for to the two parts, and the cursor
stays in the window, exactly where the edit fits the rows, a character is typed into a row with a
NUL behind its end, and a line break or a join does not take the cursor past an edge of the window
(`editor_faithful_iff`).
-/

namespace DemonOS.Xterm

/-! ## Rows -/

theorem copyRow_closed {lines : ℕ → ℕ → UInt8} (h : ∀ r, Closed (lines r)) (d s r : ℕ) :
    Closed (copyRow lines d s r) := by
  rcases eq_or_ne r d with rfl | hne
  · rw [copyRow, Function.update_self]
    exact (h r).copyString (by simpa using (h s).length_lt)
  · rw [copyRow, Function.update_of_ne hne]
    exact h r

theorem copyRow_string {lines : ℕ → ℕ → UInt8} (h : ∀ r, Closed (lines r)) (d s r : ℕ) :
    string (copyRow lines d s r) = if r = d then string (lines s) else string (lines r) := by
  split_ifs with hr
  · rw [copyRow, hr, Function.update_self]
    exact (copyString_holds _ (h s).holds.nonzero (h s).length_lt).string_eq
  · rw [copyRow, Function.update_of_ne hr]

theorem openRow_closed (row : ℕ) : ∀ (i : ℕ) {lines : ℕ → ℕ → UInt8}, (∀ r, Closed (lines r)) →
    ∀ r, Closed (openRow row i lines r)
  | 0, _, h, r => h r
  | i + 1, _, h, r => by
    rw [openRow]
    split_ifs
    · exact openRow_closed row i (copyRow_closed h _ _) r
    · exact h r

theorem openRow_string (row : ℕ) : ∀ (i : ℕ) {lines : ℕ → ℕ → UInt8}, (∀ r, Closed (lines r)) →
    ∀ r, string (openRow row i lines r)
      = if row + 1 < r ∧ r ≤ i then string (lines (r - 1)) else string (lines r)
  | 0, _, _, r => by
    rw [openRow, if_neg (by omega)]
  | i + 1, lines, h, r => by
    rw [openRow]
    split_ifs with hi hr hr
    · rw [openRow_string row i (copyRow_closed h _ _)]
      rcases eq_or_ne r (i + 1) with rfl | hne
      · rw [if_neg (by omega), copyRow_string h, if_pos rfl, Nat.add_sub_cancel]
      · rw [if_pos (by omega), copyRow_string h, if_neg (by omega)]
    · rw [openRow_string row i (copyRow_closed h _ _), if_neg (by omega), copyRow_string h,
        if_neg (by omega)]
    · omega
    · rfl

theorem closeRow_closed : ∀ (turns i : ℕ) {lines : ℕ → ℕ → UInt8}, (∀ r, Closed (lines r)) →
    ∀ r, Closed (closeRow turns i lines r)
  | 0, _, _, h, r => h r
  | turns + 1, i, _, h, r => closeRow_closed turns (i + 1) (copyRow_closed h _ _) r

theorem closeRow_string : ∀ (turns i : ℕ) {lines : ℕ → ℕ → UInt8}, (∀ r, Closed (lines r)) →
    ∀ r, string (closeRow turns i lines r)
      = if i ≤ r ∧ r < i + turns then string (lines (r + 1)) else string (lines r)
  | 0, i, _, _, r => by
    rw [closeRow, if_neg (by omega)]
  | turns + 1, i, lines, h, r => by
    rw [closeRow, closeRow_string turns (i + 1) (copyRow_closed h _ _)]
    rcases eq_or_ne r i with rfl | hne
    · rw [if_neg (by omega), if_pos (by omega), copyRow_string h, if_pos rfl]
    · split_ifs with hr hr' hr'
      · rw [copyRow_string h, if_neg (by omega)]
      · omega
      · omega
      · rw [copyRow_string h, if_neg hne]

theorem update_closed {lines : ℕ → ℕ → UInt8} (h : ∀ r, Closed (lines r)) {row : ℕ}
    {bytes : ℕ → UInt8} (hb : Closed bytes) (r : ℕ) : Closed (Function.update lines row bytes r) := by
  rcases eq_or_ne r row with rfl | hne
  · rwa [Function.update_self]
  · rw [Function.update_of_ne hne]
    exact h r

namespace Editor

variable {e e' : Editor} {rows : ℕ}

/-! ## The document and the cursor in it -/

def above (e : Editor) (row : ℕ) : List UInt8 :=
  (List.range row).flatMap fun r => e.line r ++ [newline]

def below (e : Editor) (row : ℕ) : List UInt8 :=
  (List.range (e.lineCount - (row + 1))).flatMap fun i => newline :: e.line (row + 1 + i)

/-- The text before the cursor. -/
def before (e : Editor) : List UInt8 :=
  e.above e.cursorRow ++ (e.line e.cursorRow).take e.cursorCol

/-- The text from the cursor on. -/
def after (e : Editor) : List UInt8 :=
  (e.line e.cursorRow).drop e.cursorCol ++ e.below e.cursorRow

def text (e : Editor) : List UInt8 := e.before ++ e.after

/-- The bounds on the rows and on the cursor. -/
structure Bounded (e : Editor) : Prop where
  closed : ∀ r, Closed (e.lines r)
  count_le : e.lineCount ≤ editorMaxLines
  row_lt : e.cursorRow < e.lineCount
  col_le : e.cursorCol ≤ (e.line e.cursorRow).length

def Shown (e : Editor) (rows : ℕ) : Prop :=
  e.topRow ≤ e.cursorRow ∧ e.cursorRow < e.topRow + rows

theorem above_congr {row : ℕ} (h : ∀ r < row, e'.line r = e.line r) :
    e'.above row = e.above row := by
  refine List.flatMap_congr fun r hr => ?_
  rw [h r (List.mem_range.1 hr)]

theorem below_congr {row row' : ℕ} (hc : e'.lineCount - (row' + 1) = e.lineCount - (row + 1))
    (h : ∀ i < e.lineCount - (row + 1), e'.line (row' + 1 + i) = e.line (row + 1 + i)) :
    e'.below row' = e.below row := by
  unfold below
  rw [hc]
  refine List.flatMap_congr fun i hi => ?_
  rw [h i (List.mem_range.1 hi)]

theorem above_succ (e : Editor) (row : ℕ) :
    e.above (row + 1) = e.above row ++ (e.line row ++ [newline]) := by
  simp [above, List.range_succ, List.flatMap_append]

theorem below_pred {row : ℕ} (h : row + 1 < e.lineCount) :
    e.below row = newline :: (e.line (row + 1) ++ e.below (row + 1)) := by
  unfold below
  rw [show e.lineCount - (row + 1) = e.lineCount - (row + 1 + 1) + 1 by omega,
    List.range_succ_eq_map, List.flatMap_cons, List.flatMap_map, Nat.add_zero, List.cons_append]
  congr 2
  refine List.flatMap_congr fun i _ => ?_
  rw [show row + 1 + (i + 1) = row + 1 + 1 + i by omega]

theorem below_last {row : ℕ} (h : row + 1 = e.lineCount) : e.below row = [] := by
  simp [below, h]

theorem above_below {row : ℕ} : ∀ {k : ℕ}, row + k + 1 = e.lineCount →
    e.above row ++ e.line row ++ e.below row ++ [newline] = e.above e.lineCount
  | 0, hk => by
    rw [below_last hk, ← hk, above_succ]
    simp
  | k + 1, hk => by
    rw [below_pred (by omega), ← above_below (show row + 1 + k + 1 = e.lineCount by omega), above_succ]
    simp

theorem text_newline (hr : e.cursorRow < e.lineCount) :
    e.text ++ [newline] = e.above e.lineCount := by
  obtain ⟨k, hk⟩ := Nat.exists_eq_add_of_lt hr
  rw [← above_below hk.symm, text, before, after]
  simp only [List.append_assoc]
  rw [← List.append_assoc (List.take _ _), List.take_append_drop]

theorem text_congr (hl : e'.lines = e.lines) (hc : e'.lineCount = e.lineCount)
    (hr : e.cursorRow < e.lineCount) (hr' : e'.cursorRow < e'.lineCount) : e'.text = e.text := by
  have h := text_newline hr
  have h' := text_newline hr'
  have hline : ∀ r, e'.line r = e.line r := fun r => by rw [line, line, hl]
  rw [hc, above_congr fun r _ => hline r, ← h] at h'
  exact List.append_cancel_right h'

/-! ## What a key stands for -/

/-- The keys that change the text. -/
inductive Edit where
  | character (c : UInt8)
  | lineBreak
  | backspace
  | delete

/-- The edit of a key, if it is one. -/
def edit (key : KeyPress) : Option Edit :=
  if key.modifiers &&& inputModCtrl ≠ 0 then none
  else if key.value = 0x0A then some .lineBreak
  else if key.value = 0x08 then some .backspace
  else if 0x20 ≤ key.value ∧ key.value < 0x7F then some (.character key.value.toUInt8)
  else if key.value = 0 ∧ key.keycode = keycodeDelete then some .delete
  else none

/-- What an edit does to the text before and from the cursor on. -/
def Edit.apply (before after : List UInt8) : Edit → List UInt8 × List UInt8
  | .character c => (before ++ [c], after)
  | .lineBreak => (before ++ [newline], after)
  | .backspace => (before.dropLast, after)
  | .delete => (before, after.tail)

def Does (key : KeyPress) (e e' : Editor) : Prop :=
  match edit key with
  | none => e'.text = e.text
  | some change => (e'.before, e'.after) = change.apply e.before e.after

/-- Where an edit goes through: it fits, what is typed has a NUL behind the row's end to move it
to, and the cursor does not leave the window's rows. -/
def Edit.Room (e : Editor) (rows : ℕ) : Edit → Prop
  | .character _ =>
    (e.line e.cursorRow).length < lineCapacity - 1
      ∧ e.lines e.cursorRow ((e.line e.cursorRow).length + 1) = 0
  | .lineBreak => e.lineCount < editorMaxLines ∧ e.cursorRow + 1 < e.topRow + rows
  | .backspace => 0 < e.cursorCol ∨ e.cursorRow = 0
      ∨ (e.line (e.cursorRow - 1)).length + (e.line e.cursorRow).length < lineCapacity - 1
        ∧ e.topRow < e.cursorRow
  | .delete => e.cursorCol < (e.line e.cursorRow).length ∨ e.cursorRow + 1 = e.lineCount
      ∨ (e.line e.cursorRow).length + (e.line (e.cursorRow + 1)).length < lineCapacity - 1

/-- The condition on a key, none where it is no edit. -/
def Room (e : Editor) (rows : ℕ) (key : KeyPress) : Prop := ∀ change ∈ edit key, change.Room e rows

/-! ## The character keys -/

theorem line_setLine (e : Editor) (row : ℕ) (bytes : ℕ → UInt8) (r : ℕ) :
    (e.setLine row bytes).line r = if r = row then string bytes else e.line r := by
  simp only [line, setLine, Function.update_apply]
  split_ifs <;> rfl

section Character

variable {c : UInt8}

theorem characterKey_line (hlen : (e.line e.cursorRow).length < lineCapacity - 1) {r : ℕ}
    (hr : r ≠ e.cursorRow) : (e.characterKey c).line r = e.line r := by
  simp only [characterKey, if_pos hlen]
  exact (line_setLine e _ _ r).trans (if_neg hr)

theorem characterKey_bounded (h : e.Bounded) (hne : c ≠ 0) : (e.characterKey c).Bounded := by
  by_cases hlen : (e.line e.cursorRow).length < lineCapacity - 1
  · have hrow := (h.closed e.cursorRow).holds.insert_length h.col_le hlen hne
    have hcol := h.col_le
    simp only [characterKey, if_pos hlen]
    refine ⟨fun r => update_closed h.closed ((h.closed _).insert c hlen h.col_le) r, h.count_le,
      h.row_lt, ?_⟩
    refine (Nat.add_le_add_right hcol 1).trans (hrow.trans_eq ?_)
    exact congrArg List.length ((line_setLine e _ _ _).trans (if_pos rfl)).symm
  · rwa [characterKey, if_neg hlen]

theorem characterKey_row : (e.characterKey c).cursorRow = e.cursorRow := by
  unfold characterKey
  dsimp only
  split_ifs <;> rfl

theorem characterKey_top : (e.characterKey c).topRow = e.topRow := by
  unfold characterKey
  dsimp only
  split_ifs <;> rfl

theorem characterKey_count : (e.characterKey c).lineCount = e.lineCount := by
  unfold characterKey
  dsimp only
  split_ifs <;> rfl

theorem characterKey_col (hlen : (e.line e.cursorRow).length < lineCapacity - 1) :
    (e.characterKey c).cursorCol = e.cursorCol + 1 := by
  simp only [characterKey, if_pos hlen]

theorem characterKey_split (h : e.Bounded) (hne : c ≠ 0)
    (hlen : (e.line e.cursorRow).length < lineCapacity - 1)
    (hz : e.lines e.cursorRow ((e.line e.cursorRow).length + 1) = 0) :
    (e.characterKey c).before = e.before ++ [c] ∧ (e.characterKey c).after = e.after := by
  have hline : (e.characterKey c).line e.cursorRow
      = (e.line e.cursorRow).take e.cursorCol ++ c :: (e.line e.cursorRow).drop e.cursorCol := by
    have hi := (h.closed e.cursorRow).holds.insert h.col_le hlen hne hz
    simp only [characterKey, if_pos hlen]
    exact ((line_setLine e _ _ _).trans (if_pos rfl)).trans hi.string_eq
  have hl : ((e.line e.cursorRow).take e.cursorCol).length = e.cursorCol :=
    List.length_take_of_le h.col_le
  have habove : (e.characterKey c).above e.cursorRow = e.above e.cursorRow :=
    above_congr fun r hr => characterKey_line hlen hr.ne
  have hbelow : (e.characterKey c).below e.cursorRow = e.below e.cursorRow :=
    below_congr (by rw [characterKey_count]) fun i _ => characterKey_line hlen (by omega)
  constructor
  · rw [before, characterKey_row, hline, characterKey_col hlen, habove, List.take_append, hl, before]
    simp [List.take_take]
  · rw [after, characterKey_row, hline, characterKey_col hlen, hbelow, List.drop_append, hl, after]
    simp

theorem characterKey_room (h : e.Bounded) (hne : c ≠ 0)
    (hs : (e.characterKey c).before = e.before ++ [c] ∧ (e.characterKey c).after = e.after) :
    (Edit.character c).Room e rows := by
  have hlen : (e.line e.cursorRow).length < lineCapacity - 1 := by
    by_contra hge
    have hself : e.characterKey c = e := by
      simp only [characterKey, if_neg hge]
    have hb := congrArg List.length hs.1
    rw [hself, List.length_append] at hb
    simp at hb
  refine ⟨hlen, ?_⟩
  by_contra hz
  have hlong := (h.closed e.cursorRow).holds.insert_long h.col_le hlen hne hz
  have hline : (e.characterKey c).line e.cursorRow = string (Function.update
      (openGap e.cursorCol (e.line e.cursorRow).length (e.lines e.cursorRow)) e.cursorCol c) := by
    simp only [characterKey, if_pos hlen]
    exact (line_setLine e _ _ _).trans (if_pos rfl)
  have hbelow : (e.characterKey c).below e.cursorRow = e.below e.cursorRow :=
    below_congr (by rw [characterKey_count]) fun i _ => characterKey_line hlen (by omega)
  have ha := congrArg List.length hs.2
  rw [after, characterKey_row, characterKey_col hlen, hbelow, after, hline, List.length_append,
    List.length_append, List.length_drop, List.length_drop] at ha
  have hcol : e.cursorCol ≤ (string (e.lines e.cursorRow)).length := h.col_le
  rw [line] at ha
  omega

end Character

/-! ## Enter -/

section Enter

theorem enterKey_full (hroom : ¬ e.lineCount < editorMaxLines) : e.enterKey = e := by
  rw [enterKey, if_neg hroom]

theorem enterKey_closed (h : e.Bounded) (r : ℕ) : Closed (e.enterKey.lines r) := by
  by_cases hroom : e.lineCount < editorMaxLines
  · have hopen := openRow_closed e.cursorRow e.lineCount h.closed
    have hrest : 0 + ((e.line e.cursorRow).drop e.cursorCol).length < lineCapacity := by
      have := (h.closed e.cursorRow).length_lt
      simp only [line, List.length_drop]
      omega
    simp only [enterKey, if_pos hroom]
    have hcopy := @update_closed _ hopen (e.cursorRow + 1) _
      ((hopen (e.cursorRow + 1)).copyString hrest)
    exact update_closed hcopy ((hcopy _).update (.inr rfl)) r
  · rw [enterKey_full hroom]
    exact h.closed r

theorem enterKey_row (hroom : e.lineCount < editorMaxLines) :
    e.enterKey.cursorRow = e.cursorRow + 1 := by
  simp only [enterKey, if_pos hroom]

theorem enterKey_top (e : Editor) : e.enterKey.topRow = e.topRow := by
  unfold enterKey
  split_ifs <;> rfl

theorem enterKey_line (h : e.Bounded) (hroom : e.lineCount < editorMaxLines) (r : ℕ) :
    e.enterKey.line r = if r = e.cursorRow then (e.line e.cursorRow).take e.cursorCol
      else if r = e.cursorRow + 1 then (e.line e.cursorRow).drop e.cursorCol
      else if e.cursorRow + 1 < r ∧ r ≤ e.lineCount then e.line (r - 1) else e.line r := by
  have hstring := openRow_string e.cursorRow e.lineCount h.closed
  have hholds := (h.closed e.cursorRow).holds
  simp only [enterKey, if_pos hroom]
  rw [line]
  dsimp only
  split_ifs with hr hr' hr''
  · rw [hr, Function.update_self, Function.update_of_ne (by omega)]
    have hopen := (openRow_closed e.cursorRow e.lineCount h.closed e.cursorRow).holds
    rw [hstring, if_neg (by omega)] at hopen
    exact (hopen.cut h.col_le).string_eq
  · rw [Function.update_of_ne hr, hr', Function.update_self]
    refine (copyString_holds _ (fun c hc => ?_) ?_).string_eq
    · exact hholds.nonzero c (List.mem_of_mem_drop hc)
    · have := hholds.short
      rw [List.length_drop]
      exact lt_of_le_of_lt (Nat.sub_le _ _) this
  · rw [Function.update_of_ne hr, Function.update_of_ne hr', hstring, if_pos hr'']
    rfl
  · rw [Function.update_of_ne hr, Function.update_of_ne hr', hstring, if_neg hr'']
    rfl

theorem enterKey_bounded (h : e.Bounded) : e.enterKey.Bounded := by
  by_cases hroom : e.lineCount < editorMaxLines
  · refine ⟨enterKey_closed h, ?_, ?_, ?_⟩ <;> simp only [enterKey, if_pos hroom]
    · omega
    · exact Nat.add_lt_add_right h.row_lt 1
    · exact Nat.zero_le _
  · rwa [enterKey_full hroom]

theorem enterKey_split (h : e.Bounded) (hroom : e.lineCount < editorMaxLines) :
    e.enterKey.before = e.before ++ [newline] ∧ e.enterKey.after = e.after := by
  have hl := enterKey_line h hroom
  have hcol : e.enterKey.cursorCol = 0 := by simp only [enterKey, if_pos hroom]
  have hcount : e.enterKey.lineCount = e.lineCount + 1 := by simp only [enterKey, if_pos hroom]
  have habove : e.enterKey.above e.cursorRow = e.above e.cursorRow :=
    above_congr fun r hr => by rw [hl, if_neg (by omega), if_neg (by omega), if_neg (by omega)]
  have hbelow : e.enterKey.below (e.cursorRow + 1) = e.below e.cursorRow := by
    refine below_congr (by omega) fun i hi => ?_
    rw [hl, if_neg (by omega), if_neg (by omega), if_pos (by omega)]
    congr 1
    omega
  constructor
  · rw [before, enterKey_row hroom, above_succ, habove, hl, if_pos rfl, hcol, before]
    simp
  · rw [after, enterKey_row hroom, hbelow, hl, if_neg (by omega), if_pos rfl, hcol, after,
      List.drop_zero]

theorem enterKey_room (hs : e.enterKey.before = e.before ++ [newline]) :
    e.lineCount < editorMaxLines := by
  by_contra hroom
  have hb := congrArg List.length hs
  rw [enterKey_full hroom, List.length_append] at hb
  simp at hb

end Enter

/-! ## Joined rows -/

section Join

variable {row : ℕ}

theorem joinRows_closed (h : ∀ r, Closed (e.lines r))
    (hfit : (e.line row).length + (e.line (row + 1)).length < lineCapacity) (r : ℕ) :
    Closed ((e.joinRows row).lines r) :=
  closeRow_closed _ _ (update_closed h ((h row).copyString hfit)) r

theorem joinRows_line (h : ∀ r, Closed (e.lines r))
    (hfit : (e.line row).length + (e.line (row + 1)).length < lineCapacity) (r : ℕ) :
    (e.joinRows row).line r = if r = row then e.line row ++ e.line (row + 1)
      else if row < r ∧ r + 1 < e.lineCount then e.line (r + 1) else e.line r := by
  have hclosed := @update_closed _ h row _ ((h row).copyString hfit)
  have hjoined := ((h row).holds.copyString (h (row + 1)).holds.nonzero hfit).string_eq
  rw [line, joinRows]
  rw [closeRow_string _ _ hclosed]
  split_ifs with h₁ hr h₂ h₃ h₄
  · omega
  · rw [Function.update_of_ne (by omega)]
    rfl
  · omega
  · rw [h₃, Function.update_self]
    exact hjoined
  · omega
  · rw [Function.update_of_ne (by omega)]
    rfl

theorem joinRows_count : (e.joinRows row).lineCount = e.lineCount - 1 := rfl

theorem joinRows_above (h : ∀ r, Closed (e.lines r))
    (hfit : (e.line row).length + (e.line (row + 1)).length < lineCapacity) :
    (e.joinRows row).above row = e.above row :=
  above_congr fun r hr => by rw [joinRows_line h hfit, if_neg hr.ne, if_neg (by omega)]

theorem joinRows_below (h : ∀ r, Closed (e.lines r))
    (hfit : (e.line row).length + (e.line (row + 1)).length < lineCapacity) :
    (e.joinRows row).below row = e.below (row + 1) := by
  refine below_congr (by rw [joinRows_count]; omega) fun i hi => ?_
  rw [joinRows_line h hfit, if_neg (by omega), if_pos (by omega)]
  congr 1
  omega

end Join

/-! ## Backspace and Delete -/

theorem closeGap_line (h : e.Bounded) {col : ℕ} (hc : col < (e.line e.cursorRow).length) :
    string (closeGap ((e.line e.cursorRow).length - col) col (e.lines e.cursorRow))
      = (e.line e.cursorRow).take col ++ (e.line e.cursorRow).drop (col + 1) :=
  ((h.closed e.cursorRow).holds.closeGap hc).string_eq

theorem closeGap_closed (h : e.Bounded) {col : ℕ} (hc : col ≤ (e.line e.cursorRow).length) :
    Closed (closeGap ((e.line e.cursorRow).length - col) col (e.lines e.cursorRow)) := by
  have := (h.closed e.cursorRow).length_lt
  exact (h.closed e.cursorRow).closeGap (by rw [line] at hc ⊢; omega)

section Backspace

theorem backspaceKey_left (h : e.Bounded) (hcol : 0 < e.cursorCol) :
    e.backspaceKey.Bounded ∧ e.backspaceKey.before = e.before.dropLast
      ∧ e.backspaceKey.after = e.after := by
  have hle := h.col_le
  have hl : ((e.line e.cursorRow).take (e.cursorCol - 1)).length = e.cursorCol - 1 :=
    List.length_take_of_le (by omega)
  have hrow : e.backspaceKey.cursorRow = e.cursorRow := by simp only [backspaceKey, if_pos hcol]; rfl
  have hcount : e.backspaceKey.lineCount = e.lineCount := by
    simp only [backspaceKey, if_pos hcol]
    rfl
  have hc : e.backspaceKey.cursorCol = e.cursorCol - 1 := by simp only [backspaceKey, if_pos hcol]
  have hline : ∀ r, e.backspaceKey.line r = if r = e.cursorRow then
      (e.line e.cursorRow).take (e.cursorCol - 1) ++ (e.line e.cursorRow).drop e.cursorCol
      else e.line r := by
    intro r
    have hgap := closeGap_line h
      (show e.cursorCol - 1 < (e.line e.cursorRow).length by omega)
    rw [Nat.sub_add_cancel hcol] at hgap
    simp only [backspaceKey, if_pos hcol]
    rw [← hgap]
    exact line_setLine e _ _ r
  have habove : e.backspaceKey.above e.cursorRow = e.above e.cursorRow :=
    above_congr fun r hr => by rw [hline, if_neg hr.ne]
  have hbelow : e.backspaceKey.below e.cursorRow = e.below e.cursorRow :=
    below_congr (by rw [hcount]) fun i _ => by rw [hline, if_neg (by omega)]
  refine ⟨⟨fun r => ?_, ?_, ?_, ?_⟩, ?_, ?_⟩
  · simp only [backspaceKey, if_pos hcol]
    exact update_closed h.closed (closeGap_closed h (by omega)) r
  · rw [hcount]
    exact h.count_le
  · rw [hrow, hcount]
    exact h.row_lt
  · rw [hrow, hc, hline, if_pos rfl, List.length_append, hl]
    exact Nat.le_add_right _ _
  · rw [before, hrow, hc, habove, hline, if_pos rfl, List.take_append, hl, before,
      List.dropLast_append_of_ne_nil, List.dropLast_eq_take, List.length_take_of_le hle]
    · simp [List.take_take]
    · simp only [ne_eq, List.take_eq_nil_iff, not_or]
      refine ⟨by omega, fun hnil => ?_⟩
      rw [hnil, List.length_nil] at hle
      omega
  · rw [after, hrow, hc, hbelow, hline, if_pos rfl, List.drop_append, hl, after]
    simp

theorem backspaceKey_join (h : e.Bounded) (hcol : e.cursorCol = 0) (hrow : 0 < e.cursorRow)
    (hfit : (e.line (e.cursorRow - 1)).length + (e.line e.cursorRow).length < lineCapacity - 1) :
    e.backspaceKey.Bounded ∧ e.backspaceKey.before = e.before.dropLast
      ∧ e.backspaceKey.after = e.after := by
  obtain ⟨row, hr⟩ : ∃ row, e.cursorRow = row + 1 := ⟨e.cursorRow - 1, by omega⟩
  have hlt := h.row_lt
  rw [hr] at hlt hfit
  rw [Nat.add_sub_cancel] at hfit
  have hfit' : (e.line row).length + (e.line (row + 1)).length < lineCapacity := by omega
  have he : e.backspaceKey
      = { e.joinRows row with cursorRow := row, cursorCol := (e.line row).length } := by
    rw [backspaceKey]
    rw [if_neg (by omega), if_pos hrow, hr, Nat.add_sub_cancel, if_pos hfit]
  have hline : e.backspaceKey.line row = e.line row ++ e.line (row + 1) := by
    have := joinRows_line h.closed hfit' row
    rw [if_pos rfl] at this
    rw [he]
    exact this
  have habove : e.backspaceKey.above row = e.above row := by
    rw [he]
    exact joinRows_above h.closed hfit'
  have hbelow : e.backspaceKey.below row = e.below (row + 1) := by
    rw [he]
    exact joinRows_below h.closed hfit'
  have hrow' : e.backspaceKey.cursorRow = row := by rw [he]
  have hcol' : e.backspaceKey.cursorCol = (e.line row).length := by rw [he]
  have hcount : e.backspaceKey.lineCount = e.lineCount - 1 := by rw [he, joinRows_count]
  refine ⟨⟨fun r => ?_, ?_, ?_, ?_⟩, ?_, ?_⟩
  · rw [he]
    exact joinRows_closed h.closed hfit' r
  · have := h.count_le
    omega
  · omega
  · rw [hrow', hcol', hline, List.length_append]
    exact Nat.le_add_right _ _
  · rw [before, hrow', hcol', habove, hline, before, hr, hcol, above_succ, List.take_left,
      List.take_zero, List.append_nil, ← List.append_assoc, List.dropLast_concat]
  · rw [after, hrow', hcol', hbelow, hline, after, hr, hcol, List.drop_left, List.drop_zero]

theorem backspaceKey_refused (hcol : e.cursorCol = 0) (hfit : e.cursorRow = 0 ∨
    ¬ (e.line (e.cursorRow - 1)).length + (e.line e.cursorRow).length < lineCapacity - 1) :
    e.backspaceKey = e := by
  rw [backspaceKey]
  rw [if_neg (by omega)]
  rcases hfit with h | h
  · rw [if_neg (by omega)]
  · rw [if_neg h, ite_self]

theorem backspaceKey_bounded (h : e.Bounded) : e.backspaceKey.Bounded := by
  rcases Nat.eq_zero_or_pos e.cursorCol with hcol | hcol
  · by_cases hfit : e.cursorRow = 0 ∨
        ¬ (e.line (e.cursorRow - 1)).length + (e.line e.cursorRow).length < lineCapacity - 1
    · rwa [backspaceKey_refused hcol hfit]
    · rw [not_or, not_not] at hfit
      exact (backspaceKey_join h hcol (Nat.pos_of_ne_zero hfit.1) hfit.2).1
  · exact (backspaceKey_left h hcol).1

theorem backspaceKey_split (h : e.Bounded) (hroom : 0 < e.cursorCol ∨ e.cursorRow = 0
    ∨ (e.line (e.cursorRow - 1)).length + (e.line e.cursorRow).length < lineCapacity - 1) :
    e.backspaceKey.before = e.before.dropLast ∧ e.backspaceKey.after = e.after := by
  rcases Nat.eq_zero_or_pos e.cursorCol with hcol | hcol
  · rcases Nat.eq_zero_or_pos e.cursorRow with hrow | hrow
    · rw [backspaceKey_refused hcol (.inl hrow)]
      simp [before, above, hcol, hrow]
    · have hfit := (hroom.resolve_left (by omega)).resolve_left (by omega)
      exact (backspaceKey_join h hcol hrow hfit).2
  · exact (backspaceKey_left h hcol).2

theorem backspaceKey_room (hs : e.backspaceKey.before = e.before.dropLast) :
    0 < e.cursorCol ∨ e.cursorRow = 0
      ∨ (e.line (e.cursorRow - 1)).length + (e.line e.cursorRow).length < lineCapacity - 1 := by
  by_contra hno
  rw [not_or, not_or] at hno
  have hcol : e.cursorCol = 0 := by omega
  rw [backspaceKey_refused hcol (.inr hno.2.2)] at hs
  have hb := congrArg List.length hs
  obtain ⟨row, hr⟩ : ∃ row, e.cursorRow = row + 1 := ⟨e.cursorRow - 1, by omega⟩
  rw [List.length_dropLast, before, hr, above_succ] at hb
  simp at hb
  omega

theorem backspaceKey_row (e : Editor) : e.backspaceKey.cursorRow
    = if e.cursorCol = 0 ∧ 0 < e.cursorRow
        ∧ (e.line (e.cursorRow - 1)).length + (e.line e.cursorRow).length < lineCapacity - 1
      then e.cursorRow - 1 else e.cursorRow := by
  rw [backspaceKey]
  dsimp only
  split_ifs <;> first | rfl | omega

theorem backspaceKey_top (e : Editor) : e.backspaceKey.topRow = e.topRow := by
  rw [backspaceKey]
  dsimp only
  split_ifs <;> rfl

end Backspace

section Delete

theorem deleteKey_row (e : Editor) : e.deleteKey.cursorRow = e.cursorRow := by
  rw [deleteKey]
  split_ifs <;> rfl

theorem deleteKey_col (e : Editor) : e.deleteKey.cursorCol = e.cursorCol := by
  rw [deleteKey]
  split_ifs <;> rfl

theorem deleteKey_top (e : Editor) : e.deleteKey.topRow = e.topRow := by
  rw [deleteKey]
  split_ifs <;> rfl

theorem deleteKey_right (h : e.Bounded) (hcol : e.cursorCol < (e.line e.cursorRow).length) :
    e.deleteKey.Bounded ∧ e.deleteKey.before = e.before ∧ e.deleteKey.after = e.after.tail := by
  have hl : ((e.line e.cursorRow).take e.cursorCol).length = e.cursorCol :=
    List.length_take_of_le h.col_le
  have hcount : e.deleteKey.lineCount = e.lineCount := by
    simp only [deleteKey, if_pos hcol]
    rfl
  have hline : ∀ r, e.deleteKey.line r = if r = e.cursorRow then
      (e.line e.cursorRow).take e.cursorCol ++ (e.line e.cursorRow).drop (e.cursorCol + 1)
      else e.line r := by
    intro r
    simp only [deleteKey, if_pos hcol]
    rw [← closeGap_line h hcol]
    exact line_setLine e _ _ r
  have habove : e.deleteKey.above e.cursorRow = e.above e.cursorRow :=
    above_congr fun r hr => by rw [hline, if_neg hr.ne]
  have hbelow : e.deleteKey.below e.cursorRow = e.below e.cursorRow :=
    below_congr (by rw [hcount]) fun i _ => by rw [hline, if_neg (by omega)]
  refine ⟨⟨fun r => ?_, ?_, ?_, ?_⟩, ?_, ?_⟩
  · simp only [deleteKey, if_pos hcol]
    exact update_closed h.closed (closeGap_closed h hcol.le) r
  · rw [hcount]
    exact h.count_le
  · rw [deleteKey_row, hcount]
    exact h.row_lt
  · rw [deleteKey_row, deleteKey_col, hline, if_pos rfl, List.length_append, hl]
    exact Nat.le_add_right _ _
  · rw [before, deleteKey_row, deleteKey_col, habove, hline, if_pos rfl, List.take_append, hl,
      before]
    simp
  · rw [after, deleteKey_row, deleteKey_col, hbelow, hline, if_pos rfl, List.drop_append, hl,
      after, List.drop_eq_getElem_cons hcol, List.cons_append, List.tail_cons]
    simp

theorem deleteKey_join (h : e.Bounded) (hcol : e.cursorCol = (e.line e.cursorRow).length)
    (hrow : e.cursorRow + 1 < e.lineCount)
    (hfit : (e.line e.cursorRow).length + (e.line (e.cursorRow + 1)).length < lineCapacity - 1) :
    e.deleteKey.Bounded ∧ e.deleteKey.before = e.before ∧ e.deleteKey.after = e.after.tail := by
  have he : e.deleteKey = e.joinRows e.cursorRow := by
    rw [deleteKey]
    rw [if_neg (by omega), if_pos hrow, if_pos hfit]
  have hfit' : (e.line e.cursorRow).length + (e.line (e.cursorRow + 1)).length < lineCapacity := by
    omega
  have hline := joinRows_line h.closed hfit' e.cursorRow
  rw [if_pos rfl] at hline
  have habove := joinRows_above h.closed hfit'
  have hbelow := joinRows_below h.closed hfit'
  rw [← he] at hline habove hbelow
  refine ⟨⟨fun r => ?_, ?_, ?_, ?_⟩, ?_, ?_⟩
  · rw [he]
    exact joinRows_closed h.closed hfit' r
  · rw [he, joinRows_count]
    exact (Nat.sub_le _ _).trans h.count_le
  · rw [deleteKey_row, he, joinRows_count]
    omega
  · rw [deleteKey_row, deleteKey_col, hline, hcol, List.length_append]
    exact Nat.le_add_right _ _
  · rw [before, deleteKey_row, deleteKey_col, habove, hline, hcol, List.take_left, before, hcol,
      List.take_length]
  · rw [after, deleteKey_row, deleteKey_col, hbelow, hline, hcol, List.drop_left, after, hcol,
      List.drop_length, List.nil_append, below_pred hrow, List.tail_cons]

theorem deleteKey_refused (hcol : ¬ e.cursorCol < (e.line e.cursorRow).length)
    (hfit : ¬ e.cursorRow + 1 < e.lineCount ∨ ¬ (e.line e.cursorRow).length
      + (e.line (e.cursorRow + 1)).length < lineCapacity - 1) : e.deleteKey = e := by
  rw [deleteKey]
  rw [if_neg hcol]
  rcases hfit with h | h
  · rw [if_neg h]
  · rw [if_neg h, ite_self]

theorem deleteKey_bounded (h : e.Bounded) : e.deleteKey.Bounded := by
  by_cases hcol : e.cursorCol < (e.line e.cursorRow).length
  · exact (deleteKey_right h hcol).1
  · by_cases hfit : e.cursorRow + 1 < e.lineCount ∧ (e.line e.cursorRow).length
        + (e.line (e.cursorRow + 1)).length < lineCapacity - 1
    · exact (deleteKey_join h (le_antisymm h.col_le (not_lt.1 hcol)) hfit.1 hfit.2).1
    · rwa [deleteKey_refused hcol (not_and_or.1 hfit)]

theorem deleteKey_split (h : e.Bounded) (hroom : Edit.delete.Room e rows) :
    e.deleteKey.before = e.before ∧ e.deleteKey.after = e.after.tail := by
  by_cases hcol : e.cursorCol < (e.line e.cursorRow).length
  · exact (deleteKey_right h hcol).2
  · have heq : e.cursorCol = (e.line e.cursorRow).length := le_antisymm h.col_le (not_lt.1 hcol)
    by_cases hlast : e.cursorRow + 1 = e.lineCount
    · rw [deleteKey_refused hcol (.inl (by omega))]
      simp [after, heq, below_last hlast]
    · have := h.row_lt
      exact (deleteKey_join h heq (by omega)
        ((hroom.resolve_left hcol).resolve_left hlast)).2

theorem deleteKey_room (h : e.Bounded) (hs : e.deleteKey.after = e.after.tail) :
    Edit.delete.Room e rows := by
  by_contra hno
  simp only [Edit.Room, not_or] at hno
  rw [deleteKey_refused hno.1 (.inr hno.2.2)] at hs
  have := h.row_lt
  have hb := congrArg List.length hs
  rw [List.length_tail, after, below_pred (by omega)] at hb
  simp at hb

end Delete

end Editor

end DemonOS.Xterm
