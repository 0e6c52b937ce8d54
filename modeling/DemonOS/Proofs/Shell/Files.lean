import DemonOS.Proofs.Xterm.Storage
import DemonOS.Shell.Commands

/-!
# Files copied and moved by the shell

`cp` and `mv` over xterm's backend either do what they say or put out an error and leave the files
alone, but for the cases `CpLoses` and `MvLoses` (`cp_mv_keep_iff`): a file longer than the scratch
buffer is cut, a destination is created and then not filled, and a file moved to its own name is
deleted.
-/

namespace DemonOS.Shell

open Xterm (Storage)
open Xterm.Storage

def ErrorOnly (errors : List String) (lines : List (List Char)) : Prop :=
  ∃ error ∈ errors, lines = [error.toList]

def cpErrors : List String :=
  ["usage: cp <src> <dst>", "cp: could not read source or write destination"]

def mvErrors : List String := ["usage: mv <src> <dst>", "mv: could not move file"]

def CpKept (argument : List UInt8) (m m' : FileMap) (lines : List (List Char)) : Prop :=
  (∃ src dst data, shellSplitTwoArgs argument shellNameCapacity = some (src, dst)
    ∧ m src = some data ∧ m' = m.put dst data)
  ∨ ErrorOnly cpErrors lines ∧ m' = m

/-- The same, and the source is gone if the names differ. -/
def MvKept (argument : List UInt8) (m m' : FileMap) (lines : List (List Char)) : Prop :=
  (∃ src dst data, shellSplitTwoArgs argument shellNameCapacity = some (src, dst)
    ∧ m src = some data
    ∧ m' = if src = dst then m.put dst data else (m.put dst data).drop src)
  ∨ ErrorOnly mvErrors lines ∧ m' = m

/-- The source can be read and is not empty, the destination is new and cannot be filled; or the
destination can be written and the source is longer than the buffer. -/
def CpLoses (s : Storage) (argument : List UInt8) : Prop :=
  ∃ src dst data, shellSplitTwoArgs argument shellNameCapacity = some (src, dst)
    ∧ s.Readable src ∧ s.files.contents src = some data
    ∧ (s.files.Creates dst ∧ data ≠ []
        ∧ ¬ (3 ≤ s.room ∧ s.files.Accepts dst (data.take shellFileCapacity))
      ∨ 3 ≤ s.room ∧ s.files.Accepts dst (data.take shellFileCapacity)
        ∧ shellFileCapacity < data.length)

/-- Both names are of files, there are slots for the three steps, the destination can be written,
and it is the source itself or the source is longer than the buffer. -/
def MvLoses (s : Storage) (argument : List UInt8) : Prop :=
  ∃ src dst data, shellSplitTwoArgs argument shellNameCapacity = some (src, dst)
    ∧ s.Readable src ∧ 4 ≤ s.room ∧ s.files.contents src = some data
    ∧ s.files.contents dst ≠ none ∧ s.files.Accepts dst (data.take shellFileCapacity)
    ∧ (src = dst ∨ shellFileCapacity < data.length)

variable {s s' : Storage} {argument src dst data : List UInt8}

theorem shellReadWhole_cases (hinv : s.files.Inv) (path : List UInt8) :
    (∃ data s', shellReadWhole xtermShellBackend s path = (some (data.take shellFileCapacity), s')
      ∧ s.Readable path ∧ s.files.contents path = some data ∧ s'.files = s.files
      ∧ s'.room + 1 = s.room ∧ Same s s')
    ∨ ∃ s', shellReadWhole xtermShellBackend s path = (none, s') ∧ ¬ s.Readable path
      ∧ s'.files = s.files ∧ Same s s' := by
  have hcapacity : 0 < shellFileCapacity := by decide
  rcases xtermShellReadFile_cases hinv path hcapacity (by decide)
    with ⟨data, s', hr, hrest⟩ | ⟨s', hr, hrest⟩
  · refine .inl ⟨data, s', ?_, hrest⟩
    have hb : xtermShellBackend.readFile s path shellFileCapacity = _ := hr
    rw [shellReadWhole, hb]
    dsimp only
    rw [List.take_of_length_le (le_min le_rfl (List.length_take_le _ _))]
  · refine .inr ⟨s', ?_, hrest⟩
    have hb : xtermShellBackend.readFile s path shellFileCapacity = _ := hr
    rw [shellReadWhole, hb]

theorem take_eq_self_iff : data.take shellFileCapacity = data ↔ ¬ shellFileCapacity < data.length := by
  rw [List.take_eq_self_iff, not_lt]

theorem cpKept_of_split (hsplit : shellSplitTwoArgs argument shellNameCapacity = some (src, dst))
    {m m' : FileMap} {lines : List (List Char)} : CpKept argument m m' lines
      ↔ (∃ data, m src = some data ∧ m' = m.put dst data) ∨ ErrorOnly cpErrors lines ∧ m' = m := by
  simp [CpKept, hsplit]

theorem cpLoses_of_split (hsplit : shellSplitTwoArgs argument shellNameCapacity = some (src, dst))
    (hdata : s.files.contents src = some data) : CpLoses s argument
      ↔ s.Readable src ∧ (s.files.Creates dst ∧ data ≠ []
          ∧ ¬ (3 ≤ s.room ∧ s.files.Accepts dst (data.take shellFileCapacity))
        ∨ 3 ≤ s.room ∧ s.files.Accepts dst (data.take shellFileCapacity)
          ∧ shellFileCapacity < data.length) := by
  simp [CpLoses, hsplit, hdata]

theorem FileMap.put_inj {m : FileMap} {name data data' : List UInt8}
    (h : m.put name data = m.put name data') : data = data' := by
  have := congrFun h name
  simpa [FileMap.put] using this

theorem FileMap.put_ne {m : FileMap} {name : List UInt8} (hn : m name = none) (data : List UInt8) :
    m.put name data ≠ m := by
  intro h
  have := congrFun h name
  simp [FileMap.put, hn] at this

theorem shellValueLine_label {label : List Char} (hl : label.length < shellLineCapacity) (n : ℕ)
    (suffix : List Char) : ∃ rest, shellValueLine label n suffix = some (label ++ rest) := by
  have hfill : fill [] label = label := by
    rw [fill, List.nil_append, List.take_of_length_le]
    unfold shellLineCapacity at hl ⊢
    simp only [List.length_nil]
    omega
  have hsign : ¬ (n : ℤ) < 0 := by omega
  have hmin : ¬ (n : ℤ) = -2 ^ 63 := by omega
  simp only [shellValueLine, if_neg hsign, if_neg hmin, hfill]
  split_ifs
  · exact ⟨_, by rw [fill, List.append_assoc]⟩
  · exact ⟨_, by rw [fill]⟩

theorem copied_not_error (n : ℕ) : ¬ ErrorOnly cpErrors
    (shellValueLine "copied ".toList n " bytes".toList).toList := by
  obtain ⟨rest, hr⟩ := shellValueLine_label
    (show "copied ".toList.length < shellLineCapacity by decide) n
    " bytes".toList
  rw [hr]
  rintro ⟨error, hmem, he⟩
  simp only [cpErrors, List.mem_cons, List.not_mem_nil, or_false] at hmem
  rcases hmem with rfl | rfl <;> simp at he

theorem cp_keeps_iff (hinv : s.files.Inv) (argument : List UInt8) :
    CpKept argument s.files.contents (shellCmdCp xtermShellBackend s argument).2.files.contents
      (shellCmdCp xtermShellBackend s argument).1 ↔ ¬ CpLoses s argument := by
  rcases hsplit : shellSplitTwoArgs argument shellNameCapacity with _ | ⟨src, dst⟩
  · rw [shellCmdCp, hsplit]
    refine iff_of_true (.inr ⟨⟨_, List.mem_cons_self, rfl⟩, rfl⟩) ?_
    rintro ⟨_, _, _, h, -⟩
    rw [hsplit] at h
    cases h
  rw [cpKept_of_split hsplit, shellCmdCp, hsplit]
  dsimp only
  rcases shellReadWhole_cases hinv src with
    ⟨data, s₁, hr, hread, hdata, hfiles, hroom, hsame⟩ | ⟨s₁, hr, hread, hfiles, -⟩
  swap
  · rw [hr]
    refine iff_of_true (.inr ⟨⟨_, by simp [cpErrors], rfl⟩, by rw [hfiles]⟩) ?_
    rintro ⟨_, _, _, h, hl, -⟩
    rw [hsplit] at h
    cases h
    exact hread hl
  rw [hr, cpLoses_of_split hsplit hdata]
  have hw : s₁.Writable dst (data.take shellFileCapacity)
      ↔ 3 ≤ s.room ∧ s.files.Accepts dst (data.take shellFileCapacity) := by
    have := hsame.permitted.2 hread.1
    rw [Writable, hfiles]
    constructor
    · exact fun h => ⟨by omega, h.2.2⟩
    · exact fun h => ⟨this, by omega, h.2⟩
  dsimp only
  rcases xtermShellWriteFile_cases (hfiles ▸ hinv) dst (data.take shellFileCapacity) with
    ⟨s₂, hwr, hwritable, -, hcont, -, -⟩ | ⟨s₂, hwr, hwritable, hcases⟩
  · have hb : xtermShellBackend.writeFile s₁ dst (data.take shellFileCapacity) = _ := hwr
    obtain ⟨h3, hacc⟩ := hw.1 hwritable
    have hlines := copied_not_error (data.take shellFileCapacity).length
    rw [hb]
    dsimp only
    rw [hcont, hfiles]
    simp only [hdata, Option.some.injEq, exists_eq_left', hlines, false_and, or_false, hread,
      true_and, h3, hacc, not_true, and_false, false_or, ← @take_eq_self_iff data]
    exact ⟨FileMap.put_inj, fun h => by rw [h]⟩
  · have hb : xtermShellBackend.writeFile s₁ dst (data.take shellFileCapacity) = _ := hwr
    rw [hb]
    dsimp only
    have herr : ErrorOnly cpErrors ["cp: could not read source or write destination".toList] :=
      ⟨_, by simp [cpErrors], rfl⟩
    rw [hw] at hwritable
    simp only [hdata, Option.some.injEq, exists_eq_left', herr, true_and, hread]
    have hlost : s.files.Creates dst ∧ data ≠ []
          ∧ ¬ (3 ≤ s.room ∧ s.files.Accepts dst (data.take shellFileCapacity))
        ∨ 3 ≤ s.room ∧ s.files.Accepts dst (data.take shellFileCapacity)
          ∧ shellFileCapacity < data.length ↔ s.files.Creates dst ∧ data ≠ [] :=
      ⟨fun h => h.elim (fun h => ⟨h.1, h.2.1⟩) fun h => absurd ⟨h.1, h.2.1⟩ hwritable,
        fun h => .inl ⟨h.1, h.2, hwritable⟩⟩
    rw [hlost]
    rcases hcases with ⟨hf, hnot⟩ | ⟨-, -, hcr, hcont⟩
    · rw [hfiles] at hf hnot
      refine iff_of_true (.inr (by rw [hf])) fun h => hnot ⟨hsame.permitted.2 hread.1, ?_, h.1⟩
      have := hread.2.1
      omega
    · rw [hfiles] at hcr hcont
      have hnone := Ramfs.contents_eq_none.2 hcr.2.1
      simp only [hcont, FileMap.put_ne hnone, or_false, hcr, true_and, not_not]
      exact ⟨fun h => (FileMap.put_inj h).symm, fun h => by rw [h]⟩

theorem mvKept_of_split (hsplit : shellSplitTwoArgs argument shellNameCapacity = some (src, dst))
    {m m' : FileMap} {lines : List (List Char)} : MvKept argument m m' lines
      ↔ (∃ data, m src = some data
          ∧ m' = if src = dst then m.put dst data else (m.put dst data).drop src)
        ∨ ErrorOnly mvErrors lines ∧ m' = m := by
  simp [MvKept, hsplit]

theorem mvLoses_of_split (hsplit : shellSplitTwoArgs argument shellNameCapacity = some (src, dst))
    (hdata : s.files.contents src = some data) : MvLoses s argument
      ↔ s.Readable src ∧ 4 ≤ s.room ∧ s.files.contents dst ≠ none
        ∧ s.files.Accepts dst (data.take shellFileCapacity)
        ∧ (src = dst ∨ shellFileCapacity < data.length) := by
  simp [MvLoses, hsplit, hdata]

theorem FileMap.move_eq {m : FileMap} (hne : src ≠ dst) (hdata : m src = some data) :
    m.move src dst = (m.put dst data).drop src := by
  rw [FileMap.move, FileMap.drop, FileMap.drop, FileMap.put, hdata, Function.update_comm hne]

theorem Accepts.valid (h : s.files.Accepts dst data) : Ramfs.validName dst = true := by
  obtain ⟨id, fs', ho, -⟩ := h
  exact Ramfs.ramfsOpen_valid ho

theorem not_renamable (hread : s.Readable src) (h : ¬ s.Renamable src dst) :
    ¬ (Ramfs.validName dst = true ∧ s.files.contents dst = none) := by
  rintro ⟨hv, hnone⟩
  have := hread.2.1
  exact h ⟨hread.1, by omega, hread.2.2.1, hv, hnone, hread.2.2.2⟩

theorem drop_put_iff {m : FileMap} {data' : List UInt8} : (m.put dst data').drop src
      = (if src = dst then m.put dst data else (m.put dst data).drop src)
    ↔ ¬ src = dst ∧ data' = data := by
  rcases eq_or_ne src dst with rfl | hne
  · rw [if_pos rfl]
    refine iff_of_false (fun h => ?_) fun h => h.1 rfl
    have := congrFun h src
    simp [FileMap.drop, FileMap.put] at this
  · rw [if_neg hne]
    refine ⟨fun h => ⟨hne, ?_⟩, fun h => by rw [h.2]⟩
    have := congrFun h dst
    simpa [FileMap.drop, FileMap.put, hne.symm] using this

theorem mv_keeps_iff (hinv : s.files.Inv) (argument : List UInt8) :
    MvKept argument s.files.contents (shellCmdMv xtermShellBackend s argument).2.files.contents
      (shellCmdMv xtermShellBackend s argument).1 ↔ ¬ MvLoses s argument := by
  rcases hsplit : shellSplitTwoArgs argument shellNameCapacity with _ | ⟨src, dst⟩
  · rw [shellCmdMv, hsplit]
    refine iff_of_true (.inr ⟨⟨_, List.mem_cons_self, rfl⟩, rfl⟩) ?_
    rintro ⟨_, _, _, h, -⟩
    rw [hsplit] at h
    cases h
  have herr : ErrorOnly mvErrors ["mv: could not move file".toList] := ⟨_, by simp [mvErrors], rfl⟩
  have hsilent : ¬ ErrorOnly mvErrors [] := by
    rintro ⟨error, -, he⟩
    cases he
  rw [mvKept_of_split hsplit, shellCmdMv, hsplit]
  dsimp only
  rcases xtermShellRenameFile_cases hinv src dst with
    ⟨s₁, hren, hok, hcont⟩ | ⟨s₁, hren, hrefused, hfiles, hsame, hroom⟩
  · have hb : xtermShellBackend.renameFile s src dst = _ := hren
    obtain ⟨data, hdata⟩ := Option.ne_none_iff_exists'.1 hok.2.2.2.2.2
    have hne : src ≠ dst := by
      rintro rfl
      rw [hok.2.2.2.2.1] at hdata
      cases hdata
    rw [hb, mvLoses_of_split hsplit hdata]
    refine iff_of_true (.inl ⟨data, hdata, ?_⟩) fun h => h.2.2.1 hok.2.2.2.2.1
    rw [hcont, FileMap.move_eq hne hdata, if_neg hne]
  have hb : xtermShellBackend.renameFile s src dst = _ := hren
  rw [hb]
  dsimp only
  rcases shellReadWhole_cases (s := s₁) (hfiles ▸ hinv) src with
    ⟨data, s₂, hr, hread₁, hdata, hfiles₂, hroom₂, hsame₂⟩ | ⟨s₂, hr, hread₁, hfiles₂, -⟩
  swap
  · rw [hr]
    refine iff_of_true (.inr ⟨herr, by rw [hfiles₂, hfiles]⟩) ?_
    rintro ⟨src', dst', _, h, hl, h4, -⟩
    rw [hsplit] at h
    cases h
    refine hread₁ ⟨hsame.permitted.2 hl.1, ?_, hfiles ▸ hl.2.2⟩
    have := hroom hl.1
    omega
  rw [hfiles] at hdata hfiles₂
  have hp : s.Permitted := hsame.permitted.1 hread₁.1
  have hroom₁ := hroom hp
  have h2 := hread₁.2.1
  have hread : s.Readable src := ⟨hp, by omega, hfiles ▸ hread₁.2.2⟩
  have hthere := not_renamable hread hrefused
  rw [hr, mvLoses_of_split hsplit hdata]
  dsimp only
  have hw : s₂.Writable dst (data.take shellFileCapacity)
      ↔ 4 ≤ s.room ∧ s.files.Accepts dst (data.take shellFileCapacity) := by
    rw [Writable, hfiles₂]
    constructor
    · exact fun h => ⟨by omega, h.2.2⟩
    · exact fun h => ⟨hsame₂.permitted.2 hread₁.1, by omega, h.2⟩
  rcases xtermShellWriteFile_cases (hfiles₂ ▸ hinv) dst (data.take shellFileCapacity) with
    ⟨s₃, hwr, hwritable, hinv₃, hcont, hroom₃, hsame₃⟩ | ⟨s₃, hwr, hwritable, hcases⟩
  · have hb : xtermShellBackend.writeFile s₂ dst (data.take shellFileCapacity) = _ := hwr
    obtain ⟨h4, hacc⟩ := hw.1 hwritable
    have hne : s.files.contents dst ≠ none := fun h => hthere ⟨Accepts.valid hacc, h⟩
    rw [hb]
    dsimp only
    rw [hfiles₂] at hcont
    rcases xtermShellDeleteFile_cases hinv₃ src with ⟨s₄, hdel, hcont₄⟩ | ⟨s₄, hdel, -, hno⟩
    · have hb : xtermShellBackend.deleteFile s₃ src = _ := hdel
      rw [hb]
      dsimp only
      rw [hcont₄, hcont]
      simp only [hdata, Option.some.injEq, exists_eq_left', hsilent, false_and, or_false, hread, h4,
        hne, hacc, true_and, ne_eq, not_false_eq_true, not_or, ← take_eq_self_iff]
      exact drop_put_iff
    · refine absurd ⟨?_, by omega, hread.2.2.1, ?_⟩ hno
      · exact hsame₃.permitted.2 (hsame₂.permitted.2 hread₁.1)
      · rw [hcont, FileMap.put]
        rcases eq_or_ne src dst with rfl | hsd
        · simp
        · rw [Function.update_of_ne hsd, hdata]
          simp
  · have hb : xtermShellBackend.writeFile s₂ dst (data.take shellFileCapacity) = _ := hwr
    rw [hb]
    dsimp only
    refine iff_of_true (.inr ⟨herr, ?_⟩) fun h => hwritable (hw.2 ⟨h.2.1, h.2.2.2.1⟩)
    rcases hcases with ⟨hf, -⟩ | ⟨-, -, hcr, -⟩
    · rw [hf, hfiles₂]
    · rw [hfiles₂] at hcr
      exact absurd ⟨hcr.1, Ramfs.contents_eq_none.2 hcr.2.1⟩ hthere

/-- `cp` and `mv` keep the files, or report an error and leave them alone, exactly outside
`CpLoses` and `MvLoses`. -/
theorem cp_mv_keep_iff (hinv : s.files.Inv) (argument : List UInt8) :
    (CpKept argument s.files.contents (shellCmdCp xtermShellBackend s argument).2.files.contents
        (shellCmdCp xtermShellBackend s argument).1 ↔ ¬ CpLoses s argument)
      ∧ (MvKept argument s.files.contents
          (shellCmdMv xtermShellBackend s argument).2.files.contents
          (shellCmdMv xtermShellBackend s argument).1 ↔ ¬ MvLoses s argument) :=
  ⟨cp_keeps_iff hinv argument, mv_keeps_iff hinv argument⟩

def oneFile : Storage where
  pid := 1
  objects := { caps := .capabilitiesInit, surfaces := {} }
  files := (Ramfs.perform {} (.seed [0x61] [1, 2, 3])).2

theorem oneFile_inv : oneFile.files.Inv :=
  (Ramfs.ramfsSeed_spec Ramfs.inv_init Ramfs.represents_init [0x61] [1, 2, 3]).1

/-- `cp a b` and `mv a b`. -/
theorem cp_mv_keep_ab :
    (CpKept [0x61, 0x20, 0x62] oneFile.files.contents
        (shellCmdCp xtermShellBackend oneFile [0x61, 0x20, 0x62]).2.files.contents
        (shellCmdCp xtermShellBackend oneFile [0x61, 0x20, 0x62]).1
        ↔ ¬ CpLoses oneFile [0x61, 0x20, 0x62])
      ∧ (MvKept [0x61, 0x20, 0x62] oneFile.files.contents
          (shellCmdMv xtermShellBackend oneFile [0x61, 0x20, 0x62]).2.files.contents
          (shellCmdMv xtermShellBackend oneFile [0x61, 0x20, 0x62]).1
          ↔ ¬ MvLoses oneFile [0x61, 0x20, 0x62]) :=
  cp_mv_keep_iff oneFile_inv _

/-- `mv a a` deletes the file and says nothing. -/
theorem moved_to_itself_lost : ¬ MvKept [0x61, 0x20, 0x61] oneFile.files.contents
    (shellCmdMv xtermShellBackend oneFile [0x61, 0x20, 0x61]).2.files.contents
    (shellCmdMv xtermShellBackend oneFile [0x61, 0x20, 0x61]).1 := by
  have hgone : (shellCmdMv xtermShellBackend oneFile [0x61, 0x20, 0x61]).2.files.contents [0x61]
      = none := by decide +kernel
  have hlines : (shellCmdMv xtermShellBackend oneFile [0x61, 0x20, 0x61]).1 = [] := by
    decide +kernel
  have hsplit : shellSplitTwoArgs [0x61, 0x20, 0x61] shellNameCapacity = some ([0x61], [0x61]) := by
    decide +kernel
  rw [mvKept_of_split hsplit, hlines]
  rintro (⟨data, -, hm⟩ | ⟨⟨error, -, he⟩, -⟩)
  · rw [hm, if_pos rfl] at hgone
    simp [FileMap.put] at hgone
  · cases he

end DemonOS.Shell
