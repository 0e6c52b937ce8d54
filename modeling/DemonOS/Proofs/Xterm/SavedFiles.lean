import DemonOS.Proofs.Xterm.EditorRuns
import DemonOS.Proofs.Xterm.Storage
import Mathlib.Data.List.TakeWhile

/-!
# Files opened and saved again

Opening a file splits its first 3840 bytes at the newlines, keeps at most 48 rows and of each row
what stands before a NUL in its first 79 bytes; saving puts a newline behind every row
(`joined_load`). So a file comes back as it was where the save is refused, or where it is 48 rows of
at most 79 bytes that no NUL is among, each with its newline (`editor_round_trip_iff`).
-/

namespace DemonOS.Xterm

variable {line : ℕ → UInt8} {row : List UInt8}

/-! ## Rows of bytes -/

def rowsOf (row : List UInt8) : List UInt8 → List (List UInt8)
  | [] => [row]
  | c :: rest => if c = newline then row :: rowsOf [] rest else rowsOf (row ++ [c]) rest

def kept (row : List UInt8) : List UInt8 := (row.take (lineCapacity - 1)).takeWhile (· ≠ 0)

def withNewlines (rows : List (List UInt8)) : List UInt8 := rows.flatMap (· ++ [newline])

def rejoined (bytes : List UInt8) : List UInt8 :=
  withNewlines (((rowsOf [] bytes).take editorMaxLines).map kept)

def edited (content : List UInt8) : List UInt8 := rejoined (content.take scratchSize)

def FillsEditor (content : List UInt8) : Prop :=
  ∃ rows : List (List UInt8), rows.length = editorMaxLines ∧ content = withNewlines rows
    ∧ ∀ row ∈ rows, row.length ≤ lineCapacity - 1 ∧ newline ∉ row ∧ 0 ∉ row

theorem count_withNewlines : ∀ {rows : List (List UInt8)}, (∀ row ∈ rows, newline ∉ row) →
    (withNewlines rows).count newline = rows.length
  | [], _ => rfl
  | row :: rows, h => by
    have ih := count_withNewlines fun r hr => h r (List.mem_cons_of_mem _ hr)
    have hrow := List.count_eq_zero.2 (h row List.mem_cons_self)
    unfold withNewlines at ih ⊢
    rw [List.flatMap_cons, List.count_append, List.count_append, ih, hrow, List.length_cons]
    simp [Nat.add_comm]

theorem length_withNewlines : ∀ {rows : List (List UInt8)},
    (∀ row ∈ rows, row.length ≤ lineCapacity - 1) →
    (withNewlines rows).length ≤ rows.length * lineCapacity
  | [], _ => Nat.zero_le _
  | row :: rows, h => by
    have ih := length_withNewlines fun r hr => h r (List.mem_cons_of_mem _ hr)
    have hrow := h row List.mem_cons_self
    unfold withNewlines lineCapacity at *
    rw [List.flatMap_cons, List.length_append, List.length_append, List.length_cons]
    simp only [List.length_cons, List.length_nil]
    omega

theorem length_rowsOf : ∀ (bytes row : List UInt8),
    (rowsOf row bytes).length = bytes.count newline + 1
  | [], _ => rfl
  | c :: rest, row => by
    rw [rowsOf]
    rcases eq_or_ne c newline with rfl | hne
    · rw [if_pos rfl, List.count_cons_self, List.length_cons, length_rowsOf rest]
    · rw [if_neg hne, List.count_cons_of_ne hne, length_rowsOf rest]

theorem newline_notMem_rowsOf : ∀ {bytes row : List UInt8}, newline ∉ row →
    ∀ r ∈ rowsOf row bytes, newline ∉ r
  | [], row, h, r, hr => by
    rw [rowsOf, List.mem_singleton] at hr
    rwa [hr]
  | c :: rest, row, h, r, hr => by
    rw [rowsOf] at hr
    split_ifs at hr with hc
    · rcases List.mem_cons.1 hr with rfl | hr
      · exact h
      · exact newline_notMem_rowsOf (by simp) r hr
    · exact newline_notMem_rowsOf (by simpa [h] using Ne.symm hc) r hr

theorem rowsOf_append : ∀ {bytes : List UInt8} (head : List UInt8),
    newline ∉ row → rowsOf head (row ++ newline :: bytes) = (head ++ row) :: rowsOf [] bytes := by
  induction row with
  | nil =>
    intro bytes head _
    simp [rowsOf]
  | cons c row ih =>
    intro bytes head h
    rw [List.mem_cons, not_or] at h
    rw [List.cons_append, rowsOf, if_neg (Ne.symm h.1), ih _ h.2, List.append_assoc]
    rfl

theorem rowsOf_withNewlines : ∀ {rows : List (List UInt8)}, (∀ row ∈ rows, newline ∉ row) →
    rowsOf [] (withNewlines rows) = rows ++ [[]]
  | [], _ => rfl
  | row :: rows, h => by
    have ih := rowsOf_withNewlines fun r hr => h r (List.mem_cons_of_mem _ hr)
    have hw : withNewlines (row :: rows) = row ++ newline :: withNewlines rows := by
      simp [withNewlines]
    rw [hw, rowsOf_append _ (h row List.mem_cons_self), ih]
    rfl

theorem kept_length (row : List UInt8) : (kept row).length ≤ lineCapacity - 1 :=
  (List.takeWhile_prefix _).length_le.trans (List.length_take_le _ _)

theorem kept_sub {c : UInt8} (h : c ∈ kept row) : c ∈ row :=
  List.mem_of_mem_take ((List.takeWhile_prefix _).subset h)

theorem kept_nonzero (row : List UInt8) : 0 ∉ kept row := fun h => by
  simpa using List.mem_takeWhile_imp h

theorem kept_eq (hl : row.length ≤ lineCapacity - 1) (h0 : 0 ∉ row) :
    kept row = row := by
  rw [kept, List.take_of_length_le hl, List.takeWhile_eq_self_iff]
  intro c hc
  simpa using fun h : c = 0 => h0 (h ▸ hc)

theorem edited_eq_iff (content : List UInt8) : edited content = content ↔ FillsEditor content := by
  constructor
  · intro h
    have hrows : ∀ row ∈ ((rowsOf [] (content.take scratchSize)).take editorMaxLines).map kept,
        row.length ≤ lineCapacity - 1 ∧ newline ∉ row ∧ 0 ∉ row := by
      intro row hrow
      obtain ⟨r, hr, rfl⟩ := List.mem_map.1 hrow
      exact ⟨kept_length r, fun hn => newline_notMem_rowsOf (by simp) r (List.mem_of_mem_take hr)
        (kept_sub hn), kept_nonzero r⟩
    refine ⟨_, ?_, h.symm, hrows⟩
    have hcount := count_withNewlines fun row hrow => (hrows row hrow).2.1
    have hlength := length_withNewlines fun row hrow => (hrows row hrow).1
    have hlen : ∀ bytes, (((rowsOf [] bytes).take editorMaxLines).map kept).length
        = min editorMaxLines (bytes.count newline + 1) := by
      intro bytes
      rw [List.length_map, List.length_take, length_rowsOf]
    have hself : withNewlines
        (((rowsOf [] (content.take scratchSize)).take editorMaxLines).map kept) = content := h
    rw [hself, hlen] at hcount hlength
    have htake : content.take scratchSize = content := by
      refine List.take_of_length_le (hlength.trans ?_)
      exact Nat.mul_le_mul_right _ (min_le_left _ _)
    rw [htake] at hcount
    rw [hlen, htake]
    omega
  · rintro ⟨rows, hlen, hc, hrows⟩
    have hlength := length_withNewlines fun row hrow => (hrows row hrow).1
    have htake : content.take scratchSize = content := by
      rw [hlen, ← hc] at hlength
      exact List.take_of_length_le hlength
    rw [edited, htake, rejoined]
    rw [hc, rowsOf_withNewlines fun row hrow => (hrows row hrow).2.1,
      List.take_append_of_le_length hlen.ge, List.take_of_length_le hlen.le]
    congr 1
    exact (List.map_congr_left fun row hrow =>
      kept_eq (hrows row hrow).1 (hrows row hrow).2.2).trans (List.map_id _)

/-! ## Loading and joining -/

theorem getElem_takeWhile_length : ∀ {text : List UInt8}
    (h : (text.takeWhile (· ≠ 0)).length < text.length),
    text[(text.takeWhile (· ≠ 0)).length] = 0
  | [], h => absurd h (Nat.not_lt_zero _)
  | c :: rest, h => by
    rcases eq_or_ne c 0 with rfl | hne
    · simp
    · have htake : (c :: rest).takeWhile (· ≠ 0) = c :: rest.takeWhile (· ≠ 0) :=
        List.takeWhile_cons_of_pos (by simpa using hne)
      simp only [htake, List.length_cons, List.getElem_cons_succ] at h ⊢
      exact getElem_takeWhile_length (Nat.lt_of_succ_lt_succ h)

theorem string_takeWhile {text : List UInt8} (hs : text.length < lineCapacity)
    (hb : ∀ i (h : i < text.length), line i = text[i]) (h0 : line text.length = 0) :
    string line = text.takeWhile (· ≠ 0) := by
  have hp : text.takeWhile (· ≠ 0) <+: text := List.takeWhile_prefix _
  refine Holds.string_eq ⟨hp.length_le.trans_lt hs, fun i hi => ?_, fun c hc => ?_, ?_⟩
  · rw [hb i (hi.trans_le hp.length_le), hp.getElem hi]
  · simpa using List.mem_takeWhile_imp hc
  · rcases hp.length_le.lt_or_eq with hlt | heq
    · rw [hb _ hlt]
      exact getElem_takeWhile_length hlt
    · rw [heq]
      exact h0

namespace Editor

variable {e : Editor}

def stringsAbove (lines : ℕ → ℕ → UInt8) (row : ℕ) : List UInt8 :=
  (List.range row).flatMap fun r => string (lines r) ++ [newline]

theorem stringsAbove_update (lines : ℕ → ℕ → UInt8) (row : ℕ) (bytes : ℕ → UInt8) :
    stringsAbove (Function.update lines row bytes) row = stringsAbove lines row := by
  refine List.flatMap_congr fun r hr => ?_
  rw [Function.update_of_ne (List.mem_range.1 hr).ne]

theorem stringsAbove_succ (lines : ℕ → ℕ → UInt8) (row : ℕ) (bytes : ℕ → UInt8) :
    stringsAbove (Function.update lines row bytes) (row + 1)
      = stringsAbove lines row ++ (string bytes ++ [newline]) := by
  rw [← stringsAbove_update lines row bytes]
  simp [stringsAbove, List.range_succ]

/-- The rows `load` ends with, from any state of its loop. -/
def loaded (t : (ℕ → ℕ → UInt8) × ℕ × ℕ) : (ℕ → ℕ → UInt8) × ℕ :=
  if t.2.1 < editorMaxLines then
    (Function.update t.1 t.2.1 (Function.update (t.1 t.2.1) t.2.2 0), t.2.1 + 1)
  else (t.1, t.2.1)

structure Reads (line : ℕ → UInt8) (col : ℕ) (row : List UInt8) : Prop where
  col_eq : col = min row.length (lineCapacity - 1)
  byte : ∀ i < col, line i = row.getD i 0

theorem Reads.string_eq {col : ℕ} (h : Reads line col row) :
    string (Function.update line col 0) = kept row := by
  have hl : (row.take (lineCapacity - 1)).length = col := by
    rw [List.length_take, h.col_eq, min_comm]
  refine string_takeWhile ?_ (fun i hi => ?_) ?_
  · have := h.col_eq
    rw [hl]
    unfold lineCapacity at this ⊢
    omega
  · rw [hl] at hi
    have := h.col_eq
    rw [Function.update_of_ne hi.ne, h.byte i hi, List.getElem_take, List.getD_eq_getElem?_getD,
      List.getElem?_eq_getElem (by omega), Option.getD_some]
  · rw [hl, Function.update_self]

theorem reads_nil (line : ℕ → UInt8) : Reads line 0 [] := ⟨rfl, fun _ h => absurd h (by omega)⟩

theorem Reads.keep {col : ℕ} (h : Reads line col row)
    (hc : col < lineCapacity - 1) (c : UInt8) :
    Reads (Function.update line col c) (col + 1) (row ++ [c]) := by
  have hcol : row.length = col := by
    have := h.col_eq
    omega
  refine ⟨by rw [List.length_append, List.length_singleton]; omega, fun i hi => ?_⟩
  rcases (Nat.lt_succ_iff_lt_or_eq.1 hi) with hlt | rfl
  · rw [Function.update_of_ne hlt.ne, h.byte i hlt, List.getD_append _ _ _ _ (by omega)]
  · rw [Function.update_self, ← hcol]
    simp

theorem Reads.skip {col : ℕ} (h : Reads line col row)
    (hc : ¬ col < lineCapacity - 1) (c : UInt8) : Reads line col (row ++ [c]) := by
  have hcol := h.col_eq
  refine ⟨by rw [List.length_append, List.length_singleton]; omega, fun i hi => ?_⟩
  rw [h.byte i hi, List.getD_append _ _ _ _ (by omega)]

theorem loadLines_strings : ∀ (bytes : List UInt8) {lines : ℕ → ℕ → UInt8} {line col : ℕ}
    {row : List UInt8}, line ≤ editorMaxLines → Reads (lines line) col row →
    stringsAbove (loaded (loadLines lines line col bytes)).1
        (loaded (loadLines lines line col bytes)).2
      = stringsAbove lines line
        ++ withNewlines (((rowsOf row bytes).take (editorMaxLines - line)).map kept)
  | [], lines, line, col, row, hle, h => by
    rw [loadLines, loaded, rowsOf]
    dsimp only
    split_ifs with hlt
    · rw [stringsAbove_succ, h.string_eq, List.take_of_length_le (by simp; omega)]
      simp [withNewlines]
    · rw [show editorMaxLines - line = 0 by omega]
      simp [withNewlines]
  | c :: rest, lines, line, col, row, hle, h => by
    rw [loadLines, rowsOf]
    split_ifs with hlt hn hc hn
    · rw [@loadLines_strings rest _ _ _ [] hlt (reads_nil _), stringsAbove_succ, h.string_eq,
        show editorMaxLines - line = editorMaxLines - (line + 1) + 1 by omega]
      simp [withNewlines]
    · have hnext : Reads (Function.update lines line (Function.update (lines line) col c) line)
          (col + 1) (row ++ [c]) := by
        rw [Function.update_self]
        exact h.keep hc c
      rw [loadLines_strings rest hle hnext, stringsAbove_update]
    · exact loadLines_strings rest hle (h.skip hc c)
    · rw [loaded, if_neg hlt, show editorMaxLines - line = 0 by omega]
      simp [withNewlines]
    · rw [loaded, if_neg hlt, show editorMaxLines - line = 0 by omega]
      simp [withNewlines]

theorem foldl_saveLine (h : ∀ r, Closed (e.lines r)) : ∀ {k : ℕ}, k ≤ editorMaxLines →
    ((List.range k).map e.line).foldl saveLine [] = e.above k ∧ (e.above k).length ≤ k * lineCapacity
  | 0, _ => ⟨rfl, Nat.zero_le _⟩
  | k + 1, hk => by
    obtain ⟨ih, hlen⟩ := foldl_saveLine h (k := k) (by omega)
    have hline : (e.line k).length < lineCapacity := (h k).length_lt
    have hroom : (k + 1) * lineCapacity ≤ scratchSize := Nat.mul_le_mul_right _ hk
    rw [Nat.add_mul, Nat.one_mul] at hroom
    have hsave : saveLine (e.above k) (e.line k) = e.above k ++ (e.line k ++ [newline]) := by
      unfold saveLine
      rw [List.take_of_length_le (by omega), if_pos (by rw [List.length_append]; omega),
        List.append_assoc]
    rw [List.range_succ, List.map_append, List.foldl_append, ih]
    refine ⟨hsave.trans (above_succ e k).symm, ?_⟩
    rw [above_succ, List.length_append, List.length_append, Nat.add_mul, Nat.one_mul,
      List.length_singleton]
    omega

theorem joined_eq (h : e.Bounded) : e.joined = e.above e.lineCount :=
  (foldl_saveLine h.closed h.count_le).1

/-- What is saved of a file that has just been opened. -/
theorem joined_load (h : ∀ r, Closed (e.lines r)) (hrow : e.cursorRow = 0) (hcol : e.cursorCol = 0)
    (bytes : List UInt8) : (e.load bytes).joined = rejoined bytes := by
  have hl := @loadLines_strings bytes e.lines 0 0 _ (Nat.zero_le _)
    (reads_nil _)
  rw [joined_eq (load_bounded h hrow hcol bytes)]
  have heq : (e.load bytes).lines = (loaded (loadLines e.lines 0 0 bytes)).1
      ∧ (e.load bytes).lineCount = (loaded (loadLines e.lines 0 0 bytes)).2 := by
    unfold load loaded
    dsimp only
    split_ifs <;> exact ⟨rfl, rfl⟩
  have habove : (e.load bytes).above (e.load bytes).lineCount
      = stringsAbove (e.load bytes).lines (e.load bytes).lineCount := rfl
  rw [habove, heq.1, heq.2, hl]
  rfl

theorem load_filename (e : Editor) (bytes : List UInt8) :
    (e.load bytes).filename = e.filename := by
  unfold load
  dsimp only
  split_ifs <;> rfl

/-! ## The round trip -/

theorem demonHandleWrite_length (s : Storage) (handle : ℕ) (bytes : List UInt8) :
    (s.demonHandleWrite handle bytes).1 = none
      ∨ (s.demonHandleWrite handle bytes).1 = some bytes.length := by
  unfold Storage.demonHandleWrite
  split
  · exact .inl rfl
  · split_ifs
    · exact .inr rfl
    · split
      · exact .inl rfl
      · exact .inr rfl
    · exact .inl rfl

theorem editorSave_eq (e : Editor) (s : Storage) :
    (e.editorSave s).2 = (s.xtermShellWriteFile e.filename e.joined).2
      ∧ (e.editorSave s).1.statusIsError = !(s.xtermShellWriteFile e.filename e.joined).1 := by
  unfold editorSave Storage.xtermShellWriteFile Storage.openFile
  rcases s.demonServiceOpen Storage.storageService with ⟨_ | storage, s₁⟩
  · exact ⟨rfl, rfl⟩
  dsimp only
  rcases s₁.demonFileOpen storage e.filename true with ⟨_ | handle, s₂⟩
  · exact ⟨rfl, rfl⟩
  dsimp only
  have hlen := demonHandleWrite_length s₂ handle e.joined
  rcases hw : s₂.demonHandleWrite handle e.joined with ⟨written, s₃⟩
  rw [hw] at hlen
  rcases hlen with rfl | rfl
  · rw [if_neg (by simp)]
    exact ⟨rfl, rfl⟩
  · rw [if_pos rfl]
    exact ⟨rfl, rfl⟩

/-- The save that follows an opening goes through: there are slots for both, and the file can be
stored with what the editor makes of it. -/
def Saves (s : Storage) (name content : List UInt8) : Prop :=
  s.Permitted ∧ 3 ≤ s.room ∧ s.files.Accepts name (edited content)

/-- The file is as it was, with a failure reported or not. -/
def Survives (name content : List UInt8) (saved : Editor × Storage) : Prop :=
  saved.2.files.contents name = some content
    ∨ saved.1.statusIsError = true ∧ saved.2.files.contents name = some content

theorem survives_iff {name content : List UInt8} {saved : Editor × Storage} :
    Survives name content saved ↔ saved.2.files.contents name = some content := by
  exact ⟨fun h => h.elim id And.right, .inl⟩

theorem editorOpen_there {s : Storage} (hinv : s.files.Inv) (h : ∀ r, Closed (e.lines r))
    {name content : List UInt8} (hc : s.files.contents name = some content) :
    (e.editorOpen s name).1.filename = name ∧ (e.editorOpen s name).2.files = s.files
      ∧ Storage.Same s (e.editorOpen s name).2
      ∧ ((e.editorOpen s name).1.joined = edited content ∧ (e.editorOpen s name).2.room + 1 = s.room
        ∨ (e.editorOpen s name).2.room ≤ s.room
          ∧ (s.Permitted ∧ 2 ≤ s.room → s.files.ramfsOpen name true = none)) := by
  have hne : s.files.contents name ≠ none := by rw [hc]; simp
  have hname : name.take (lineCapacity - 1) = name := by
    obtain ⟨i, hu, rfl, -⟩ := (hinv.represents name content).1 hc
    exact List.take_of_length_le ((hinv.named i hu).2.trans (by decide))
  have hold : ¬ s.files.Creates name := fun hcr => hne (Ramfs.contents_eq_none.2 hcr.2.1)
  have hreset : (e.reset name).filename = name := hname
  unfold editorOpen
  rcases Storage.openFile_cases hinv name true with
    ⟨handle, i, s₁, ho, hp, hroom, hsame, hheld, hu, hopen⟩ | ⟨s₁, ho, hsame, hroom, hcases⟩
  · obtain ⟨hfiles, hclosed, hsame'⟩ := hheld.close
    obtain ⟨-, ⟨j, huj, hij, hslot⟩, hthere⟩ := Ramfs.ramfsOpen_contents hinv hopen
    obtain ⟨hsf, -⟩ : s₁.files = s.files ∧ _ := hthere.resolve_right fun h => hold h.1
    obtain rfl : i = j := by omega
    have hread : s₁.demonHandleRead handle scratchSize = some (content.take scratchSize) := by
      have hdata : s.files.contentAt i = content := by
        rw [hsf] at hu hslot
        rw [← hslot, hinv.represents.of_used hu] at hc
        exact Option.some.inj hc
      rw [hheld.read, Ramfs.copyRamfsToUser_once _ _ (by decide) (by decide), hsf,
        Ramfs.ramfsReadRange_used (hsf ▸ hu), if_neg (Nat.not_lt_zero _), List.drop_zero, hdata]
    dsimp only
    rw [hreset, ho]
    dsimp only
    rw [hread, Option.getD_some]
    refine ⟨(load_filename _ _).trans hreset, hfiles.trans hsf, hsame.trans hsame',
      .inl ⟨?_, by omega⟩⟩
    exact joined_load (e := e.reset name) h rfl rfl _
  · obtain ⟨hf, hnone, -⟩ := hcases.resolve_right fun h => hold h.2.2.2.1
    dsimp only
    rw [hreset, ho]
    exact ⟨(load_filename _ _).trans hreset, hf, hsame, .inr ⟨hroom, hnone⟩⟩

/-- After any run of xterm a file that is there is opened in the editor and saved. It is as it was
exactly where it fills the editor with whole rows, or where the save is refused. -/
theorem editor_round_trip_iff (events : List Terminal.Happening) {s : Storage}
    (hinv : s.files.Inv) {name content : List UInt8} (hc : s.files.contents name = some content) :
    Survives name content (((Terminal.run events).editor.editorOpen s name).1.editorSave
        ((Terminal.run events).editor.editorOpen s name).2)
      ↔ FillsEditor content ∨ ¬ Saves s name content := by
  have hclosed := (Terminal.run_inv events).closed
  generalize (Terminal.run events).editor = e at hclosed
  obtain ⟨hname, hfiles, hsame, hcases⟩ := editorOpen_there hinv hclosed hc
  have hold : ¬ s.files.Creates name := fun hcr => by
    rw [Ramfs.contents_eq_none.2 hcr.2.1] at hc
    cases hc
  rw [survives_iff, (editorSave_eq _ _).1, hname]
  generalize (e.editorOpen s name).1.joined = written at hcases
  generalize (e.editorOpen s name).2 = s₁ at hfiles hsame hcases
  have hkept : ∀ s' : Storage, s'.files = s₁.files → s'.files.contents name = some content := by
    intro s' hs'
    rw [hs', hfiles, hc]
  rcases Storage.xtermShellWriteFile_cases (s := s₁) (hfiles ▸ hinv) name written with
    ⟨s₂, hw, hwritable, -, hcont, -, -⟩ | ⟨s₂, hw, hwritable, hrest⟩
  · obtain ⟨hp, h2, hacc⟩ := hwritable
    rw [hfiles] at hacc
    rcases hcases with ⟨rfl, hroom⟩ | ⟨hle, hnone⟩
    · have hsaves : Saves s name content := ⟨hsame.permitted.1 hp, by omega, hacc⟩
      have hput : (s₁.files.contents.put name (edited content)) name = some (edited content) :=
        Function.update_self _ _ _
      rw [hw]
      rw [hcont, hput, Option.some.injEq, edited_eq_iff]
      exact ⟨.inl, fun h => h.resolve_right fun hno => hno hsaves⟩
    · obtain ⟨id, fs', ho, -⟩ := hacc
      rw [hnone ⟨hsame.permitted.1 hp, by omega⟩] at ho
      cases ho
  · rw [hw]
    refine iff_of_true (hkept s₂ ?_) (.inr fun hsaves => hwritable ?_)
    · rcases hrest with ⟨hf, -⟩ | ⟨-, -, hcr, -⟩
      · exact hf
      · exact absurd (hfiles ▸ hcr) hold
    · obtain ⟨hp, h3, hacc⟩ := hsaves
      rcases hcases with ⟨rfl, hroom⟩ | ⟨hle, hnone⟩
      · exact ⟨hsame.permitted.2 hp, by omega, hfiles.symm ▸ hacc⟩
      · obtain ⟨id, fs', ho, -⟩ := hacc
        rw [hnone ⟨hp, by omega⟩] at ho
        cases ho

def hiFile : Storage where
  pid := 1
  objects := { caps := .capabilitiesInit, surfaces := {} }
  files := (Ramfs.perform {} (.seed [0x61] [0x68, 0x69])).2

theorem editor_round_trip_hi :
    Survives [0x61] [0x68, 0x69] (((Terminal.run []).editor.editorOpen hiFile [0x61]).1.editorSave
        ((Terminal.run []).editor.editorOpen hiFile [0x61]).2)
      ↔ FillsEditor [0x68, 0x69] ∨ ¬ Saves hiFile [0x61] [0x68, 0x69] :=
  editor_round_trip_iff []
    (Ramfs.ramfsSeed_spec Ramfs.inv_init Ramfs.represents_init [0x61] [0x68, 0x69]).1
    (by decide +kernel)

/-- The file `hi` is saved with a newline. -/
theorem newline_added : ¬ Survives [0x61] [0x68, 0x69]
    (((Terminal.run []).editor.editorOpen hiFile [0x61]).1.editorSave
      ((Terminal.run []).editor.editorOpen hiFile [0x61]).2) := by
  rw [survives_iff]
  decide +kernel

end Editor

end DemonOS.Xterm
