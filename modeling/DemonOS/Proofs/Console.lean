import DemonOS.Console
import Mathlib.Algebra.Order.Ring.Nat
import Mathlib.Data.List.GetD
import Mathlib.Data.List.Range

/-!
# Lines of the console

The cells are a window on an unbounded sheet on which the text is written from the cursor on; a
newline moves the window where it has to (`On.newline`). So a line is written in as many rows as it
fills (`On.writeLine`), and as every byte is taken by itself, two writes are one of both texts
(`console_lines`).
-/

namespace DemonOS

namespace Console

variable {t u : Console}

/-- Where the cursor may be. -/
structure Within (t : Console) : Prop where
  row : t.row < vgaHeight
  column : t.column < vgaWidth

/-! ## The loops -/

theorem blankRows_cells (t : Console) (y rows : ℕ) : t.blankRows y rows = { t with
    cells := fun i => if y * 80 ≤ i ∧ i < y * 80 + rows * 80 then t.entry 0x20 else t.cells i } := by
  have hall : ∀ n, (List.range n).foldl (fun t i => t.storeCell y i (t.entry 0x20)) t = { t with
      cells := fun i => if y * 80 ≤ i ∧ i < y * 80 + n then t.entry 0x20 else t.cells i } := by
    intro n
    induction n with
    | zero =>
      have hnot : ∀ i, ¬(y * 80 ≤ i ∧ i < y * 80 + 0) := fun i => by omega
      simp only [List.range_zero, List.foldl_nil, hnot, if_false]
    | succ n ih =>
      rw [List.range_succ, List.foldl_append, ih, List.foldl_cons, List.foldl_nil, storeCell, vgaWidth]
      congr 1
      funext i
      dsimp only [entry]
      rcases eq_or_ne i (y * 80 + n) with rfl | hi
      · rw [Function.update_self, if_pos (by omega)]
      · rw [Function.update_of_ne hi]
        exact if_congr (by omega) rfl rfl
  exact hall _

theorem newline_eq (t : Console) : t.newline = if t.row < 24 then
      { t with column := 0, row := t.row + 1 }
    else { t with
      column := 0
      row := 24
      cells := fun i => if i < 1920 then t.cells (80 + i) else if i < 2000 then t.entry 0x20
        else t.cells i } := by
  have hall : ∀ n (t : Console), (List.range n).foldl
      (fun t i => t.storeCell 0 i (t.cells (vgaWidth + i))) t
      = { t with cells := fun i => if i < n then t.cells (80 + i) else t.cells i } := by
    intro n t
    induction n with
    | zero => simp
    | succ n ih =>
      rw [List.range_succ, List.foldl_append, ih, List.foldl_cons, List.foldl_nil, storeCell, vgaWidth]
      congr 1
      funext i
      dsimp only
      rw [if_neg (by omega : ¬80 + n < n), Nat.zero_mul, Nat.zero_add]
      rcases eq_or_ne i n with rfl | hi
      · rw [Function.update_self, if_pos (Nat.lt_succ_self i)]
      · rw [Function.update_of_ne hi]
        exact if_congr (by omega) rfl rfl
  unfold newline
  dsimp only
  refine ite_congr (propext ⟨fun h => Nat.lt_of_succ_lt_succ h, Nat.succ_lt_succ⟩) (fun _ => rfl)
    fun _ => ?_
  rw [hall, blankRows_cells]
  congr 1
  funext i
  change (if 1920 ≤ i ∧ i < 2000 then t.entry 0x20 else if i < 1920 then t.cells (80 + i)
    else t.cells i) = _
  split_ifs <;> first | rfl | omega

theorem newline_within (t : Console) : t.newline.Within := by
  rw [newline_eq]
  split_ifs with hrow
  · exact ⟨Nat.succ_lt_succ hrow, Nat.zero_lt_succ _⟩
  · exact ⟨Nat.lt_succ_self _, Nat.zero_lt_succ _⟩

def placed (t : Console) (byte : UInt8) : Console :=
  { t with automaticWrap := false }.storeCell t.row t.column
    (t.entry (if 32 ≤ byte ∧ byte ≤ 126 then byte else 0x3F))

theorem writeVisible_eq (t : Console) (byte : UInt8) : t.writeVisible byte =
    if t.column + 1 = 80 then
      { { t.placed byte with column := t.column + 1 }.newline with automaticWrap := true }
    else { t.placed byte with column := t.column + 1 } := rfl

theorem Within.writeVisible (h : t.Within) (byte : UInt8) : (t.writeVisible byte).Within := by
  rw [writeVisible_eq, newline_eq]
  have hrow : t.row < 25 := h.row
  have hcolumn : t.column < 80 := h.column
  unfold placed storeCell
  dsimp only
  split_ifs <;> refine ⟨?_, ?_⟩ <;> simp only [vgaWidth, vgaHeight] <;> omega

/-! ## Reachable states -/

def run (calls : List Call) : Console := calls.foldl perform {}

theorem Within.writeByte (h : t.Within) (byte : UInt8) : (t.writeByte byte).Within := by
  unfold Console.writeByte
  split_ifs
  · rw [blankRows_cells]
    exact ⟨Nat.zero_lt_succ _, Nat.zero_lt_succ _⟩
  · exact ⟨t.newline_within.row, t.newline_within.column⟩
  · exact ⟨h.row, Nat.zero_lt_succ _⟩
  · generalize 4 - t.column % 4 = spaces
    induction spaces generalizing t with
    | zero => exact h
    | succ spaces ih => exact ih (h.writeVisible 0x20)
  · exact h.writeVisible byte

theorem Within.write (h : t.Within) (text : List UInt8) : (t.terminalWrite text).Within := by
  have hall : ∀ (text : List UInt8) (t : Console), t.Within →
      (text.foldl Console.writeByte t).Within := by
    intro text
    induction text with
    | nil => exact fun _ h => h
    | cons byte text ih => exact fun t h => ih _ (h.writeByte byte)
  unfold terminalWrite
  split_ifs
  · exact hall text t h
  · exact h

theorem perform_within (h : t.Within) (call : Call) : (t.perform call).Within := by
  cases call with
  | init =>
    rw [perform, terminalInit, blankRows_cells]
    exact ⟨Nat.zero_lt_succ _, Nat.zero_lt_succ _⟩
  | setColor | setOutput => exact ⟨h.row, h.column⟩
  | write text => exact h.write text
  | writeLine text =>
    rw [perform, terminalWriteLine]
    dsimp only
    split_ifs
    · exact ⟨(h.write text).row, (h.write text).column⟩
    · exact ⟨(newline_within _).row, (newline_within _).column⟩
    · exact h
  | putChar row column character =>
    rw [perform, terminalPutChar]
    dsimp only
    split_ifs
    · exact h
    all_goals exact ⟨h.row, h.column⟩
  | backspace =>
    rw [perform, terminalBackspace]
    split_ifs
    · exact h
    · exact ⟨h.row, (Nat.sub_le ..).trans_lt h.column⟩

theorem run_within (calls : List Call) : (run calls).Within := by
  have hrun : ∀ (calls : List Call) (t : Console), t.Within → (calls.foldl perform t).Within := by
    intro calls
    induction calls with
    | nil => exact fun _ h => h
    | cons call calls ih => exact fun t h => ih _ (perform_within h call)
  exact hrun calls _ ⟨Nat.zero_lt_succ _, Nat.zero_lt_succ _⟩

/-! ## The sheet -/

/-- The console is a window on the sheet, which ends at the cursor's row or above it. -/
structure On (sheet : ℕ → UInt16) (line : ℕ) (u : Console) : Prop where
  row : u.row + (line - 24) = line
  cells : ∀ i < 2000, u.cells i = sheet (i + 80 * (line - 24))

theorem On.newline {sheet : ℕ → UInt16} {line : ℕ} (h : On sheet line u) (hrow : u.row < 25)
    (hblank : ∀ i, 80 * (line + 1) ≤ i → 2000 ≤ i → sheet i = u.entry 0x20) :
    On sheet (line + 1) u.newline := by
  have hline := h.row
  rw [newline_eq]
  split_ifs with hlow
  · refine ⟨by dsimp only; omega, fun i hi => ?_⟩
    rw [show line + 1 - 24 = line - 24 by omega]
    exact h.cells i hi
  · refine ⟨by dsimp only; omega, fun i hi => ?_⟩
    dsimp only
    split_ifs with hupper
    · rw [h.cells _ (by omega)]
      exact congrArg sheet (by omega)
    · exact (hblank _ (by omega) (by omega)).symm

/-- The cells with the text from the cursor's row on, and blank rows below them. -/
def sheet (t : Console) (text : List UInt8) (i : ℕ) : UInt16 :=
  if 80 * t.row ≤ i ∧ i < 80 * t.row + text.length then t.entry (text.getD (i - 80 * t.row) 0)
  else if i < 2000 then t.cells i else t.entry 0x20

theorem sheet_concat (t : Console) (text : List UInt8) (byte : UInt8) (i : ℕ) :
    t.sheet (text ++ [byte]) i
      = if i = 80 * t.row + text.length then t.entry byte else t.sheet text i := by
  unfold sheet
  rw [List.length_append, List.length_singleton]
  split_ifs with h1 h2 h3 h4 h5 <;> first | rfl | omega | skip
  · rw [h2, Nat.add_sub_cancel_left, List.getD_append_right _ _ _ _ le_rfl, Nat.sub_self]
    rfl
  · rw [List.getD_append _ _ _ _ (by omega)]

def Printable (byte : UInt8) : Prop := 32 ≤ byte ∧ byte ≤ 126

theorem writeByte_printable {byte : UInt8} (h : Printable byte) (t : Console) :
    t.writeByte byte = t.writeVisible byte := by
  obtain ⟨hlow, hhigh⟩ := h
  unfold writeByte
  rw [if_neg, if_neg, if_neg, if_neg] <;> rintro rfl <;> revert hlow <;> decide

/-- What some printable bytes written from the start of a row leave. -/
structure Written (t : Console) (text : List UInt8) (u : Console) : Prop where
  on : On (t.sheet text) (t.row + text.length / 80) u
  column : u.column = text.length % 80
  color : u.color = t.color
  wrap : text ≠ [] → u.automaticWrap = decide (text.length % 80 = 0)

theorem Written.concat {text : List UInt8} {byte : UInt8} (h : Written t text u) (hrow : u.row < 25)
    (hbyte : Printable byte) : Written t (text ++ [byte]) (u.writeByte byte) := by
  have hplaced : On (t.sheet (text ++ [byte])) (t.row + text.length / 80)
      { u.placed byte with column := u.column + 1 } := by
    refine ⟨h.on.row, fun i hi => ?_⟩
    have hline := h.on.row
    have hentry : u.entry byte = t.entry byte := by rw [entry, h.color, entry]
    rw [sheet_concat]
    have hvisible : (if 32 ≤ byte ∧ byte ≤ 126 then byte else 0x3F) = byte := if_pos hbyte
    simp only [placed, storeCell, vgaWidth, hvisible, h.column]
    rcases eq_or_ne i (u.row * 80 + text.length % 80) with rfl | hne
    · rw [Function.update_self, if_pos (by omega)]
      exact hentry
    · rw [Function.update_of_ne hne, if_neg (by omega)]
      exact h.on.cells i hi
  rw [writeByte_printable hbyte, writeVisible_eq, h.column]
  rw [h.column] at hplaced
  split_ifs with hfull
  · have hmod : (text.length + 1) % 80 = 0 := by omega
    have hdiv : (text.length + 1) / 80 = text.length / 80 + 1 := by omega
    have hblank : ∀ i, 80 * (t.row + text.length / 80 + 1) ≤ i → 2000 ≤ i →
        t.sheet (text ++ [byte]) i = u.entry 0x20 := by
      intro i hi hi'
      rw [sheet, List.length_append, List.length_singleton, if_neg (by omega), if_neg (by omega),
        entry, entry, h.color]
    have hnew := hplaced.newline hrow hblank
    refine ⟨?_, ?_, ?_, fun _ => ?_⟩ <;> simp only [List.length_append, List.length_singleton]
    · rw [hdiv]
      exact ⟨hnew.row, hnew.cells⟩
    · rw [newline_eq, hmod]
      split_ifs <;> rfl
    · rw [newline_eq, ← h.color]
      split_ifs <;> rfl
    · rw [hmod]
      rfl
  · have hmod : (text.length + 1) % 80 = text.length % 80 + 1 := by omega
    have hdiv : (text.length + 1) / 80 = text.length / 80 := by omega
    refine ⟨?_, ?_, h.color, fun _ => ?_⟩ <;>
      simp only [List.length_append, List.length_singleton, hmod, hdiv]
    · exact hplaced
    · rw [decide_eq_false (Nat.succ_ne_zero _)]
      rfl

theorem writes (h : t.Within) (hcolumn : t.column = 0) (text : List UInt8)
    (htext : ∀ byte ∈ text, Printable byte) :
    (text.foldl writeByte t).Within ∧ Written t text (text.foldl writeByte t) := by
  induction text using List.reverseRecOn with
  | nil =>
    have hrow : t.row < 25 := h.row
    have hline : t.row + 0 / 80 - 24 = 0 := by omega
    refine ⟨h, ⟨?_, fun i hi => ?_⟩, hcolumn, rfl, fun hne => absurd rfl hne⟩ <;>
      rw [List.length_nil, hline]
    · rfl
    · rw [sheet, List.length_nil, if_neg (by omega), if_pos (by omega)]
      rfl
  | append_singleton text byte ih =>
    obtain ⟨hwithin, hwritten⟩ := ih fun b hb => htext b (List.mem_append_left _ hb)
    rw [List.foldl_append]
    exact ⟨hwithin.writeByte byte, hwritten.concat hwithin.row
      (htext byte (List.mem_append_right _ (List.mem_singleton_self byte)))⟩

/-- What a line of printable bytes leaves. -/
structure WrittenLine (t : Console) (text : List UInt8) (u : Console) : Prop where
  on : On (t.sheet text) (t.row + (text.length + 79) / 80) u
  column : u.column = 0
  wrap : u.automaticWrap = false

theorem writesLine (h : t.Within) (hcolumn : t.column = 0) (houtput : t.outputEnabled = true)
    {text : List UInt8} (hne : text ≠ []) (htext : ∀ byte ∈ text, Printable byte) :
    WrittenLine t text (t.terminalWriteLine text) := by
  obtain ⟨hwithin, hwritten⟩ := writes h hcolumn text htext
  unfold terminalWriteLine terminalWrite
  rw [if_pos houtput, if_pos houtput]
  dsimp only
  have hwrap := hwritten.wrap hne
  have hlength : 0 < text.length := List.length_pos_iff.2 hne
  by_cases hfull : text.length % 80 = 0
  · rw [decide_eq_true hfull] at hwrap
    rw [if_pos hwrap]
    have hdiv : (text.length + 79) / 80 = text.length / 80 := by omega
    refine ⟨?_, hwritten.column.trans hfull, rfl⟩
    rw [hdiv]
    exact ⟨hwritten.on.row, hwritten.on.cells⟩
  · rw [decide_eq_false hfull] at hwrap
    rw [if_neg (by rw [hwrap]; exact Bool.false_ne_true)]
    have hdiv : (text.length + 79) / 80 = text.length / 80 + 1 := by omega
    have hnew := hwritten.on.newline hwithin.row fun i hi hi' => by
      rw [sheet, if_neg (by omega), if_neg (by omega), entry, entry, hwritten.color]
    refine ⟨?_, ?_, rfl⟩
    · rw [hdiv]
      exact ⟨hnew.row, hnew.cells⟩
    · dsimp only
      rw [newline_eq]
      split_ifs <;> rfl

/-! ## Writes -/

theorem writeVisible_output (t : Console) (byte : UInt8) :
    (t.writeVisible byte).outputEnabled = t.outputEnabled := by
  rw [writeVisible_eq, newline_eq]
  split_ifs <;> rfl

theorem writeByte_output (t : Console) (byte : UInt8) :
    (t.writeByte byte).outputEnabled = t.outputEnabled := by
  unfold writeByte
  split_ifs
  · rw [blankRows_cells]
  · rw [newline_eq]
    split_ifs <;> rfl
  · rfl
  · generalize 4 - t.column % 4 = spaces
    induction spaces generalizing t with
    | zero => rfl
    | succ spaces ih => exact (ih _).trans (writeVisible_output t 0x20)
  · exact writeVisible_output t byte

theorem write_append (t : Console) (a b : List UInt8) :
    t.terminalWrite (a ++ b) = (t.terminalWrite a).terminalWrite b := by
  have houtput : ∀ (a : List UInt8) (t : Console),
      (a.foldl writeByte t).outputEnabled = t.outputEnabled := by
    intro a
    induction a with
    | nil => exact fun _ => rfl
    | cons byte a ih => exact fun t => (ih _).trans (writeByte_output t byte)
  unfold terminalWrite
  by_cases h : t.outputEnabled = true
  · rw [if_pos h, if_pos h, if_pos ((houtput a t).trans h), List.foldl_append]
  · rw [if_neg h, if_neg h, if_neg h]

/-- The cursor stays on the screen, writes add up, and a line takes the rows that it fills. -/
theorem console_lines (calls : List Call) : (run calls).Within
    ∧ (∀ a b, (run calls).terminalWrite (a ++ b) = ((run calls).terminalWrite a).terminalWrite b)
    ∧ ((run calls).outputEnabled = true → (run calls).column = 0 → ∀ text ≠ [],
      (∀ byte ∈ text, Printable byte) →
        WrittenLine (run calls) text ((run calls).terminalWriteLine text)) :=
  ⟨run_within calls, write_append _, fun houtput hcolumn _ hne htext =>
    writesLine (run_within calls) hcolumn houtput hne htext⟩

theorem console_lines_full : WrittenLine (run [.init]) (List.replicate 80 0x41)
    ((run [.init]).terminalWriteLine (List.replicate 80 0x41)) := by
  refine (console_lines [.init]).2.2 ?_ ?_ _ (by decide) fun byte hbyte => ?_
  · rw [run, List.foldl_cons, perform, terminalInit, blankRows_cells]
    rfl
  · rw [run, List.foldl_cons, perform, terminalInit, blankRows_cells]
    rfl
  · obtain rfl := List.eq_of_mem_replicate hbyte
    exact ⟨by decide, by decide⟩

/-- With its output off the console writes no line. -/
theorem output_off : (run [.setOutput false]).column = 0 ∧ Printable 0x41
    ∧ ¬WrittenLine (run [.setOutput false]) [0x41]
      ((run [.setOutput false]).terminalWriteLine [0x41]) :=
  ⟨rfl, ⟨by decide, by decide⟩, fun h => Nat.zero_ne_one h.on.row⟩

end Console

end DemonOS
