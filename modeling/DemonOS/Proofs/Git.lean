import DemonOS.Git
import DemonOS.Lib.Machine

/-!
# The history only grows

A commit is written behind the commits there are, and its snapshots behind what the arena holds, so
that neither an earlier entry nor a byte of an earlier snapshot is written again. The files are
measured before anything is written, and a file that can be measured can be read: a commit that
fails has written nothing (`gitCommit_none`). So the log is the history of what was committed, and
only grows (`history_append_only`).
-/

namespace DemonOS

namespace Git

/-- What a commit stood for when it was made. -/
structure GitRecord where
  hash : UInt64
  parentHash : UInt64
  message : List UInt8
  contents : List UInt8 → Option (List UInt8)

def recordOf (g : Git) (fs : Ramfs) (message : List UInt8) (hash : UInt64) : GitRecord where
  hash := hash
  parentHash := g.gitHeadHash
  message := message.take gitMessageMax
  contents := fun name => if g.gitIsTracked name then fileView fs name else none

/-- The repository over files that anyone may change, and what has been committed, the last
first. -/
structure Repository where
  git : Git
  files : Ramfs
  history : List GitRecord := []

inductive GitEvent
  | add (name : List UInt8)
  | commit (message : List UInt8)
  | modify (files : Ramfs)

def Repository.step (r : Repository) : GitEvent → Repository
  | .add name => { r with git := (r.git.gitAdd r.files name).2 }
  | .commit message =>
    match r.git.gitCommit r.files message with
    | (some hash, g) =>
      { r with git := g, history := r.git.recordOf r.files message hash :: r.history }
    | (none, g) => { r with git := g }
  | .modify files => { r with files }

/-- The commit reads as it was recorded, and its snapshots lie in the part of the arena in use. -/
structure Recorded (g : Git) (c : GitCommit) (r : GitRecord) : Prop where
  hash : c.hash = r.hash
  parentHash : c.parentHash = r.parentHash
  message : c.message = r.message
  contents : ∀ name, (snapshotOf c name).map g.snapshotData = r.contents name
  within : ∀ i, i < c.fileCount → (c.files i).offset + (c.files i).length ≤ g.snapshotUsed

/-- The commits are those of the history. -/
structure Holds (g : Git) (history : List GitRecord) : Prop where
  count : g.commitCount = history.length
  used : g.snapshotUsed ≤ gitSnapshotArenaBytes
  entries : ∀ k r, history[k]? = some r → g.Recorded (g.commits (g.commitCount - 1 - k)) r

section

variable {history : List GitRecord}

variable {g g' : Git} {fs : Ramfs} {name : List UInt8}

theorem snapshotData_congr {f : GitFileSnapshot} {used : ℕ}
    (hused : ∀ a, a < used → g'.snapshotArena a = g.snapshotArena a)
    (hwithin : f.offset + f.length ≤ used) : g'.snapshotData f = g.snapshotData f :=
  List.map_congr_left fun b hb => hused _ (by have := List.mem_range.1 hb; omega)

theorem snapshotOf_some {c : GitCommit} {f : GitFileSnapshot} (h : snapshotOf c name = some f) :
    ∃ i, i < c.fileCount ∧ c.files i = f ∧ f.name = name := by
  obtain ⟨i, hi, rfl⟩ := List.mem_map.1 (List.mem_of_find?_eq_some h)
  refine ⟨i, List.mem_range.1 hi, rfl, ?_⟩
  simpa using List.find?_some h

theorem fileView_of_fileSize {length : ℕ} (h : fileSize fs name = some length) :
    ∃ data, fileView fs name = some data ∧ data.length = length := by
  obtain ⟨opened, hopened, hsize⟩ := Option.bind_eq_some_iff.1 h
  obtain ⟨file, hfile, rfl⟩ := Option.map_eq_some_iff.1 hsize
  refine ⟨(List.range file.length).map (fs.byteAt file), ?_, by simp⟩
  rw [fileView, hopened, Option.bind_some, Ramfs.ramfsView, hfile, Option.map_some]

structure Copied (fs : Ramfs) (g g' : Git) (i : ℕ) : Prop where
  initialized : g'.initialized = g.initialized
  tracked : g'.tracked = g.tracked
  trackedCount : g'.trackedCount = g.trackedCount
  commitCount : g'.commitCount = g.commitCount
  others : ∀ k, k ≠ g.commitCount → g'.commits k = g.commits k
  entry : (g'.commits g.commitCount).parentHash = (g.commits g.commitCount).parentHash
    ∧ (g'.commits g.commitCount).message = (g.commits g.commitCount).message
    ∧ (g'.commits g.commitCount).fileCount = (g.commits g.commitCount).fileCount
  used : g.snapshotUsed ≤ g'.snapshotUsed
  arena : ∀ a, a < g.snapshotUsed → g'.snapshotArena a = g.snapshotArena a
  files : ∀ j, j < i → ((g'.commits g.commitCount).files j).name = g.tracked j
    ∧ fileView fs (g.tracked j) = some (g'.snapshotData ((g'.commits g.commitCount).files j))
    ∧ ((g'.commits g.commitCount).files j).offset + ((g'.commits g.commitCount).files j).length
      ≤ g'.snapshotUsed

theorem Copied.put {i : ℕ} {data : List UInt8} (h : Copied fs g g' i)
    (hdata : fileView fs (g.tracked i) = some data) :
    Copied fs g (g'.putSnapshot i data) (i + 1) := by
  have harena : ∀ a, a < g'.snapshotUsed →
      (g'.putSnapshot i data).snapshotArena a = g'.snapshotArena a := fun a ha =>
    if_neg (by omega)
  have hentry : (g'.putSnapshot i data).commits g.commitCount
      = { g'.commits g.commitCount with
          files := Function.update (g'.commits g.commitCount).files i
            { name := g'.tracked i, offset := g'.snapshotUsed, length := data.length } } := by
    simp only [putSnapshot, h.commitCount, Function.update_self]
  refine ⟨h.initialized, h.tracked, h.trackedCount, h.commitCount, fun k hk => ?_, ?_, ?_, ?_, ?_⟩
  · rw [← h.others k hk]
    exact Function.update_of_ne (h.commitCount ▸ hk) _ _
  · rw [hentry]
    exact h.entry
  · have := h.used
    simp only [putSnapshot]
    omega
  · intro a ha
    rw [harena a (by have := h.used; omega), h.arena a ha]
  · intro j hj
    rw [hentry]
    dsimp only
    by_cases hlast : j = i
    · subst hlast
      rw [Function.update_self, hdata, h.tracked]
      refine ⟨rfl, congrArg some (List.ext_getElem (by simp [snapshotData]) fun b hb _ => ?_),
        le_rfl⟩
      simp only [snapshotData, putSnapshot, List.getElem_map, List.getElem_range]
      rw [if_pos (by omega), Nat.add_sub_cancel_left, List.getD_eq_getElem?_getD,
        List.getElem?_eq_getElem hb, Option.getD_some]
    · obtain ⟨hname, hview, hwithin⟩ := h.files j (by omega)
      rw [Function.update_of_ne hlast]
      refine ⟨hname, ?_, ?_⟩
      · rw [hview, snapshotData_congr harena hwithin]
      · simp only [putSnapshot]
        omega

theorem copyFiles_copied : ∀ (rest i total total' : ℕ) (hash : UInt64) (g' : Git),
    Copied fs g g' i → g.totalBytes fs rest i total = some total' →
    ∃ hash' t, copyFiles fs rest i hash g' = (some hash', t) ∧ Copied fs g t (i + rest)
      ∧ t.snapshotUsed + total = g'.snapshotUsed + total'
  | 0, i, total, total', hash, g', h, htotal => by
    obtain rfl : total = total' := by simpa [totalBytes] using htotal
    exact ⟨hash, g', rfl, h, rfl⟩
  | rest + 1, i, total, total', hash, g', h, htotal => by
    rw [totalBytes] at htotal
    rcases hsize : fileSize fs (g.tracked i) with _ | length
    · rw [hsize] at htotal
      cases htotal
    · rw [hsize] at htotal
      obtain ⟨data, hdata, rfl⟩ := fileView_of_fileSize hsize
      obtain ⟨hash', t, hcopy, ht, hused⟩ := copyFiles_copied rest (i + 1) _ total'
        (hashBytes (hashBytes hash (g'.tracked i)) data) _ (h.put hdata) htotal
      refine ⟨hash', t, ?_, ?_, ?_⟩
      · rw [copyFiles, h.tracked, hdata]
        rw [h.tracked] at hcopy
        exact hcopy
      · rwa [show i + (rest + 1) = i + 1 + rest by omega]
      · simp only [putSnapshot] at hused
        omega

structure Committed (fs : Ramfs) (g : Git) (message : List UInt8) (hash : UInt64) (g' : Git) :
    Prop where
  commitCount : g'.commitCount = g.commitCount + 1
  others : ∀ k, k ≠ g.commitCount → g'.commits k = g.commits k
  hash : (g'.commits g.commitCount).hash = hash
  parentHash : (g'.commits g.commitCount).parentHash = g.gitHeadHash
  message : (g'.commits g.commitCount).message = message.take gitMessageMax
  fileCount : (g'.commits g.commitCount).fileCount = g.trackedCount
  used : g.snapshotUsed ≤ g'.snapshotUsed
  room : g.snapshotUsed ≤ gitSnapshotArenaBytes → g'.snapshotUsed ≤ gitSnapshotArenaBytes
  arena : ∀ a, a < g.snapshotUsed → g'.snapshotArena a = g.snapshotArena a
  files : ∀ j, j < g.trackedCount → ((g'.commits g.commitCount).files j).name = g.tracked j
    ∧ fileView fs (g.tracked j) = some (g'.snapshotData ((g'.commits g.commitCount).files j))
    ∧ ((g'.commits g.commitCount).files j).offset + ((g'.commits g.commitCount).files j).length
      ≤ g'.snapshotUsed
  initialized : g'.initialized = g.initialized
  tracked : g'.tracked = g.tracked
  trackedCount : g'.trackedCount = g.trackedCount

theorem totalBytes_congr (hcongr : g'.tracked = g.tracked) : ∀ (rest i total : ℕ),
    g'.totalBytes fs rest i total = g.totalBytes fs rest i total
  | 0, _, _ => rfl
  | rest + 1, i, total => by
    simp only [totalBytes, hcongr, totalBytes_congr hcongr rest]

/-- Why a commit is not made: nothing is tracked, there is no room for another one, or the files
cannot be measured or do not fit the arena. -/
def Refuses (g : Git) (fs : Ramfs) : Prop :=
  g.initialized = false ∨ g.trackedCount = 0 ∨ gitMaxCommits ≤ g.commitCount
    ∨ g.totalBytes fs g.trackedCount 0 0 = none
    ∨ ∃ total, g.totalBytes fs g.trackedCount 0 0 = some total
      ∧ (2 ^ 64 + gitSnapshotArenaBytes - g.snapshotUsed) % 2 ^ 64 < total

theorem gitCommit_cases (g : Git) (fs : Ramfs) (message : List UInt8) :
    g.Refuses fs ∧ g.gitCommit fs message = (none, g)
      ∨ ¬g.Refuses fs
        ∧ ∃ hash g', g.gitCommit fs message = (some hash, g') ∧ Committed fs g message hash g' := by
  rw [gitCommit]
  split_ifs with hnone hfull
  · exact .inl ⟨hnone.imp_right .inl, rfl⟩
  · exact .inl ⟨.inr (.inr (.inl hfull)), rfl⟩
  rcases htotal : g.totalBytes fs g.trackedCount 0 0 with _ | total
  · exact .inl ⟨.inr (.inr (.inr (.inl htotal))), rfl⟩
  dsimp only
  split_ifs with hroom
  · exact .inl ⟨.inr (.inr (.inr (.inr ⟨total, htotal, hroom⟩))), rfl⟩
  have hmade : ¬g.Refuses fs := by
    rintro (h | h | h | h | ⟨total', h, hlt⟩)
    · exact hnone (.inl h)
    · exact hnone (.inr h)
    · exact hfull h
    · rw [htotal] at h
      cases h
    · obtain rfl : total = total' := by simpa [htotal] using h
      exact hroom hlt
  set begun : Git := { g with
    commits := Function.update g.commits g.commitCount
      { g.commits g.commitCount with
        parentHash := g.gitHeadHash
        message := message.take gitMessageMax
        fileCount := g.trackedCount } } with hbegun
  have hentry : begun.commits g.commitCount = { g.commits g.commitCount with
      parentHash := g.gitHeadHash
      message := message.take gitMessageMax
      fileCount := g.trackedCount } := Function.update_self ..
  have hfirst : Copied fs begun begun 0 :=
    ⟨rfl, rfl, rfl, rfl, fun _ _ => rfl, ⟨rfl, rfl, rfl⟩, le_rfl, fun _ _ => rfl,
      fun j hj => absurd hj (Nat.not_lt_zero j)⟩
  obtain ⟨hash, t, hcopy, ht, hused⟩ := copyFiles_copied g.trackedCount 0 0 total
    (hashBytes (hashBytes 1469598103934665603 (wordBytes g.gitHeadHash))
      (message.take gitMessageMax)) begun hfirst
    ((totalBytes_congr (show begun.tracked = g.tracked from rfl) _ _ _).trans htotal)
  refine .inr ⟨hmade, hash, { t with
    commits := Function.update t.commits t.commitCount { t.commits t.commitCount with hash := hash }
    commitCount := t.commitCount + 1 }, by rw [hcopy], ?_⟩
  have hcount : t.commitCount = g.commitCount := ht.commitCount
  have hlast : (Function.update t.commits t.commitCount
      { t.commits t.commitCount with hash := hash }) g.commitCount
        = { t.commits g.commitCount with hash := hash } := by
    rw [← hcount, Function.update_self]
  obtain ⟨hparent, hmessage, hfiles⟩ := ht.entry
  constructor <;> dsimp only
  · rw [hcount]
  · intro k hk
    rw [Function.update_of_ne (hcount ▸ hk), ht.others k hk]
    exact Function.update_of_ne hk ..
  · rw [hlast]
  · rw [hlast]
    exact hparent.trans (congrArg GitCommit.parentHash hentry)
  · rw [hlast]
    exact hmessage.trans (congrArg GitCommit.message hentry)
  · rw [hlast]
    exact hfiles.trans (congrArg GitCommit.fileCount hentry)
  · exact ht.used
  · intro hle
    have hbefore : begun.snapshotUsed = g.snapshotUsed := rfl
    omega
  · exact ht.arena
  · intro j hj
    rw [hlast]
    exact ht.files j (by rwa [Nat.zero_add])
  · exact ht.initialized
  · exact ht.tracked
  · exact ht.trackedCount

/-- A commit that fails leaves everything as it was. -/
theorem gitCommit_none {message : List UInt8} (h : (g.gitCommit fs message).1 = none) :
    (g.gitCommit fs message).2 = g := by
  rcases gitCommit_cases g fs message with ⟨-, hsame⟩ | ⟨-, hash, g', hsome, -⟩
  · rw [hsame]
  · rw [hsome] at h
    cases h

theorem gitIsTracked_iff :
    g.gitIsTracked name = true ↔ ∃ i, i < g.trackedCount ∧ g.tracked i = name := by
  simp [gitIsTracked]

theorem Recorded.keep {c : GitCommit} {r : GitRecord} (h : g.Recorded c r)
    (hused : g.snapshotUsed ≤ g'.snapshotUsed)
    (harena : ∀ a, a < g.snapshotUsed → g'.snapshotArena a = g.snapshotArena a) :
    g'.Recorded c r := by
  refine ⟨h.hash, h.parentHash, h.message, fun name => ?_, fun i hi => (h.within i hi).trans hused⟩
  rw [← h.contents name]
  rcases hsnapshot : snapshotOf c name with _ | f
  · rfl
  · obtain ⟨i, hi, rfl, -⟩ := snapshotOf_some hsnapshot
    simp only [Option.map_some, snapshotData_congr harena (h.within i hi)]

theorem Committed.recorded {message : List UInt8} {hash : UInt64}
    (h : Committed fs g message hash g') :
    g'.Recorded (g'.commits g.commitCount) (g.recordOf fs message hash) := by
  refine ⟨h.hash, h.parentHash, h.message, fun name => ?_, fun i hi => ?_⟩
  · rcases hsnapshot : snapshotOf (g'.commits g.commitCount) name with _ | f
    · have hfresh : ¬ g.gitIsTracked name = true := by
        rw [gitIsTracked_iff]
        rintro ⟨i, hi, rfl⟩
        have hnot := List.find?_eq_none.1 hsnapshot ((g'.commits g.commitCount).files i)
          (List.mem_map.2 ⟨i, List.mem_range.2 (h.fileCount ▸ hi), rfl⟩)
        exact hnot (by rw [(h.files i hi).1, beq_self_eq_true])
      exact (if_neg hfresh).symm
    · obtain ⟨i, hi, rfl, rfl⟩ := snapshotOf_some hsnapshot
      obtain ⟨hname, hview, -⟩ := h.files i (h.fileCount ▸ hi)
      have htracked : g.gitIsTracked ((g'.commits g.commitCount).files i).name = true :=
        gitIsTracked_iff.2 ⟨i, h.fileCount ▸ hi, hname.symm⟩
      rw [Option.map_some, ← hview, ← hname]
      exact (if_pos htracked).symm
  · exact (h.files i (h.fileCount ▸ hi)).2.2

theorem Holds.commit {message : List UInt8} {hash : UInt64}
    (h : g.Holds history) (hg : Committed fs g message hash g') :
    g'.Holds (g.recordOf fs message hash :: history) := by
  refine ⟨?_, hg.room h.used, ?_⟩
  · rw [hg.commitCount, h.count, List.length_cons]
  · rintro (_ | k) r hr
    · obtain rfl : g.recordOf fs message hash = r := by simpa using hr
      rw [hg.commitCount, show g.commitCount + 1 - 1 - 0 = g.commitCount by omega]
      exact hg.recorded
    · rw [List.getElem?_cons_succ] at hr
      have hk : k < history.length := (List.getElem?_eq_some_iff.1 hr).1
      have hcount := h.count
      rw [hg.commitCount, show g.commitCount + 1 - 1 - (k + 1) = g.commitCount - 1 - k by omega,
        hg.others _ (by omega)]
      exact (h.entries k r hr).keep hg.used hg.arena

theorem Holds.add (h : g.Holds history) :
    (g.gitAdd fs name).2.Holds history := by
  rw [gitAdd]
  rcases fs.ramfsOpen name false with _ | opened
  · split_ifs <;> exact h
  · dsimp only
    split_ifs
    · exact h
    · exact h
    · exact h
    · exact ⟨h.count, h.used, fun k r hr => (h.entries k r hr).keep le_rfl fun _ _ => rfl⟩

theorem Holds.gitHeadHash (h : g.Holds history) :
    g.gitHeadHash = ((history[0]?).map GitRecord.hash).getD 0 := by
  rw [Git.gitHeadHash]
  rcases history with _ | ⟨r, history⟩
  · rw [if_neg (by rw [h.count]; exact Nat.lt_irrefl 0)]
    rfl
  · rw [if_pos (by rw [h.count]; exact Nat.succ_pos _)]
    exact (h.entries 0 r rfl).hash

/-- Each commit names the one before it, the first none. -/
def Linked (history : List GitRecord) : Prop :=
  ∀ k r, history[k]? = some r → r.parentHash = ((history[k + 1]?).map GitRecord.hash).getD 0

theorem Linked.cons {r : GitRecord} (h : Linked history)
    (hr : r.parentHash = ((history[0]?).map GitRecord.hash).getD 0) : Linked (r :: history) := by
  rintro (_ | k) r' hr'
  · obtain rfl : r = r' := by simpa using hr'
    exact hr
  · exact h k r' hr'

theorem Holds.gitLogEntry (h : g.Holds history) (k : ℕ) :
    g.gitLogEntry k = (history[k]?).map fun r => (r.hash, r.parentHash, r.message) := by
  rw [Git.gitLogEntry, h.count]
  split_ifs with hk
  · rw [List.getElem?_eq_none hk, Option.map_none]
  · rw [List.getElem?_eq_getElem (by omega), Option.map_some]
    obtain ⟨hhash, hparent, hmessage, -, -⟩ := h.entries k _ (List.getElem?_eq_getElem (by omega))
    rw [h.count] at hhash hparent hmessage
    dsimp only
    rw [hhash, hparent, hmessage]

theorem Holds.gitCommitFile (h : g.Holds history) (k : ℕ)
    (name : List UInt8) :
    g.gitCommitFile k name = (history[k]?).bind fun r => r.contents name := by
  rw [Git.gitCommitFile]
  split_ifs with hk
  · rw [List.getElem?_eq_none (h.count ▸ hk), Option.bind_none]
  · rw [h.count] at hk
    rw [List.getElem?_eq_getElem (by omega), Option.bind_some]
    exact (h.entries k _ (List.getElem?_eq_getElem (by omega))).contents name

end

namespace Repository

theorem step_holds (r : Repository) (event : GitEvent)
    (h : r.git.Holds r.history ∧ Linked r.history) :
    (r.step event).git.Holds (r.step event).history ∧ Linked (r.step event).history := by
  obtain ⟨hholds, hlinked⟩ := h
  rcases event with name | message | files
  · exact ⟨hholds.add, hlinked⟩
  · rcases gitCommit_cases r.git r.files message with ⟨-, hnone⟩ | ⟨-, hash, g', hsome, hg⟩
    · simp only [step, hnone]
      exact ⟨hholds, hlinked⟩
    · simp only [step, hsome]
      exact ⟨hholds.commit hg, hlinked.cons hholds.gitHeadHash⟩
  · exact ⟨hholds, hlinked⟩

theorem step_history (r : Repository) (event : GitEvent) :
    r.history <:+ (r.step event).history := by
  rcases event with name | message | files
  · exact List.suffix_rfl
  · rcases gitCommit_cases r.git r.files message with ⟨-, hnone⟩ | ⟨-, hash, g', hsome, -⟩
    · simp only [step, hnone, List.suffix_rfl]
    · simp only [step, hsome, List.suffix_cons]
  · exact List.suffix_rfl

theorem run_history (r : Repository) (events : List GitEvent) :
    r.history <:+ (Machine.run step r events).history :=
  Machine.run_inv (I := fun r' => r.history <:+ r'.history) step
    (fun r' event h => h.trans (r'.step_history event)) events r List.suffix_rfl

end Repository

/-- Over every run from an initialised repository the log is what was committed, each commit behind
its parent; whatever happens later every commit reads the same at its place; and a commit that fails
changes nothing. -/
theorem history_append_only (g : Git) (files : Ramfs) (events later : List GitEvent) :
    let r := Machine.run Repository.step ⟨g.gitRepositoryInit, files, []⟩ events
    let r' := Machine.run Repository.step r later
    let since := r'.git.gitCommitCount - r.git.gitCommitCount
    r.git.gitCommitCount = r.history.length
      ∧ (∀ k, r.git.gitLogEntry k
          = (r.history[k]?).map fun c => (c.hash, c.parentHash, c.message))
      ∧ (∀ k name, r.git.gitCommitFile k name = (r.history[k]?).bind fun c => c.contents name)
      ∧ (∀ k c, r.history[k]? = some c →
          c.parentHash = ((r.history[k + 1]?).map GitRecord.hash).getD 0)
      ∧ r.history <:+ r'.history
      ∧ (∀ k, k < r.git.gitCommitCount →
          r'.git.gitLogEntry (since + k) = r.git.gitLogEntry k
            ∧ ∀ name, r'.git.gitCommitFile (since + k) name = r.git.gitCommitFile k name)
      ∧ ∀ message, (r.git.gitCommit r.files message).1 = none →
          (r.git.gitCommit r.files message).2 = r.git := by
  intro r r' since
  have hinit : g.gitRepositoryInit.Holds [] := ⟨rfl, Nat.zero_le _, by simp⟩
  obtain ⟨hholds, hlinked⟩ : r.git.Holds r.history ∧ Linked r.history :=
    Machine.run_inv (I := fun r => r.git.Holds r.history ∧ Linked r.history) Repository.step
      Repository.step_holds events ⟨g.gitRepositoryInit, files, []⟩ ⟨hinit, by simp [Linked]⟩
  obtain ⟨hholds', -⟩ : r'.git.Holds r'.history ∧ Linked r'.history :=
    Machine.run_inv (I := fun r => r.git.Holds r.history ∧ Linked r.history) Repository.step
      Repository.step_holds later r ⟨hholds, hlinked⟩
  obtain ⟨newer, hnewer⟩ : r.history <:+ r'.history := r.run_history later
  have hsince : since = newer.length := by
    have hcount : r'.git.gitCommitCount = newer.length + r.history.length := by
      rw [← List.length_append, hnewer]
      exact hholds'.count
    have hcount' : r.git.gitCommitCount = r.history.length := hholds.count
    omega
  have hplace : ∀ k, r'.history[since + k]? = r.history[k]? := by
    intro k
    rw [← hnewer, hsince, List.getElem?_append_right (Nat.le_add_right ..), Nat.add_sub_cancel_left]
  refine ⟨hholds.count, hholds.gitLogEntry, hholds.gitCommitFile, hlinked, ⟨newer, hnewer⟩,
    fun k _ => ⟨?_, fun name => ?_⟩, fun message => gitCommit_none⟩
  · rw [hholds'.gitLogEntry, hholds.gitLogEntry, hplace]
  · rw [hholds'.gitCommitFile, hholds.gitCommitFile, hplace]

end Git

/-!
## The status is exact

The names tracked, the snapshots of HEAD and the files are three stores of their own.
`git_repository_dirty` answers no exactly if each tracked name has a file that reads as HEAD recorded
it when it was made (`dirty_iff`), whatever became of the files since; a name that HEAD has no
snapshot of counts as changed, and right after a commit nothing does.
-/

namespace Git

variable {g g' : Git} {fs : Ramfs} {name : List UInt8}

def headContents (history : List GitRecord) (name : List UInt8) : Option (List UInt8) :=
  (history[0]?).bind fun head => head.contents name

def Unchanged (history : List GitRecord) (fs : Ramfs) (name : List UInt8) : Prop :=
  ∃ data, fileView fs name = some data ∧ headContents history name = some data

theorem Holds.headSnapshot {history : List GitRecord} (h : g.Holds history) (name : List UInt8) :
    g.headSnapshot name = headContents history name := by
  rw [Git.headSnapshot, headContents, h.count]
  rcases history with _ | ⟨head, history⟩
  · rfl
  · rw [if_neg (by simp), List.getElem?_cons_zero, Option.bind_some, ← h.count]
    exact (h.entries 0 head rfl).contents name

/-- What the loop of `git_repository_dirty` finds of a file and its snapshot. -/
def differs (current head : Option (List UInt8)) : Bool :=
  match current, head with
  | some current, some head => current != head
  | _, _ => true

theorem differs_eq_false {current head : Option (List UInt8)} :
    differs current head = false ↔ ∃ data, current = some data ∧ head = some data := by
  rcases current with _ | current <;> rcases head with _ | head
  · simp [differs]
  · simp [differs]
  · simp [differs]
  · simp only [differs, bne_eq_false_iff_eq, Option.some.injEq]
    exact ⟨fun h => ⟨head, h, rfl⟩, fun ⟨_, hcurrent, hhead⟩ => hcurrent.trans hhead.symm⟩

theorem gitRepositoryDirty_eq (hinit : g.initialized = true) (hhead : g.commitCount ≠ 0) :
    g.gitRepositoryDirty fs = (List.range g.trackedCount).any fun i =>
      differs (fileView fs (g.tracked i)) (g.headSnapshot (g.tracked i)) := by
  rw [gitRepositoryDirty, if_neg (by simp [hinit]), if_neg fun h => hhead h.2]
  rfl

theorem gitRepositoryDirty_untracked (h : g.trackedCount = 0) :
    g.gitRepositoryDirty fs = false := by
  rw [gitRepositoryDirty, h]
  split_ifs with hinit hnone
  · rfl
  · exact absurd hnone.1 (Nat.lt_irrefl 0)
  · rfl

/-- The comparison finds no change exactly where each tracked file is as HEAD recorded it. -/
theorem Holds.dirty_iff {history : List GitRecord} (h : g.Holds history)
    (hinit : g.initialized = true) :
    g.gitRepositoryDirty fs = false
      ↔ ∀ name, g.gitIsTracked name = true → Unchanged history fs name := by
  by_cases htracked : g.trackedCount = 0
  · refine iff_of_true (gitRepositoryDirty_untracked htracked) fun name hname => ?_
    obtain ⟨i, hi, -⟩ := gitIsTracked_iff.1 hname
    omega
  by_cases hhead : g.commitCount = 0
  · -- Without a HEAD the first tracked name has no snapshot.
    have hdirty : g.gitRepositoryDirty fs = true := by
      rw [gitRepositoryDirty, if_neg (by simp [hinit]), if_pos ⟨by omega, hhead⟩]
    refine iff_of_false (by simp [hdirty]) fun hsame => ?_
    obtain ⟨data, -, hdata⟩ := hsame _ (gitIsTracked_iff.2 ⟨0, by omega, rfl⟩)
    rw [← h.headSnapshot, Git.headSnapshot, if_pos hhead] at hdata
    cases hdata
  rw [gitRepositoryDirty_eq hinit hhead, List.any_eq_false]
  constructor
  · intro hloop name hname
    obtain ⟨i, hi, rfl⟩ := gitIsTracked_iff.1 hname
    have hsame := differs_eq_false.1 (Bool.eq_false_iff.2 (hloop i (List.mem_range.2 hi)))
    rwa [h.headSnapshot] at hsame
  · intro hall i hi
    have hsame := hall (g.tracked i) (gitIsTracked_iff.2 ⟨i, List.mem_range.1 hi, rfl⟩)
    rw [Unchanged, ← h.headSnapshot] at hsame
    exact Bool.eq_false_iff.1 (differs_eq_false.2 hsame)

theorem gitAdd_initialized (g : Git) (fs : Ramfs) (name : List UInt8) :
    (g.gitAdd fs name).2.initialized = g.initialized := by
  rw [gitAdd]
  rcases fs.ramfsOpen name false with _ | opened
  · split_ifs <;> rfl
  · dsimp only
    split_ifs <;> rfl

theorem Committed.clean {history : List GitRecord} {message : List UInt8} {hash : UInt64}
    (hg : Committed fs g message hash g') (h : g.Holds history) (hinit : g.initialized = true) :
    g'.gitRepositoryDirty fs = false := by
  rw [(h.commit hg).dirty_iff (hg.initialized.trans hinit)]
  intro name htracked
  obtain ⟨i, hi, rfl⟩ := gitIsTracked_iff.1 htracked
  rw [hg.trackedCount] at hi
  rw [hg.tracked]
  have hread := (hg.files i hi).2.1
  refine ⟨_, hread, ?_⟩
  have hbefore : g.gitIsTracked (g.tracked i) = true := gitIsTracked_iff.2 ⟨i, hi, rfl⟩
  rw [headContents, List.getElem?_cons_zero, Option.bind_some, ← hread]
  exact if_pos hbefore

namespace Repository

theorem step_initialized (r : Repository) (event : GitEvent)
    (h : r.git.initialized = true) : (r.step event).git.initialized = true := by
  rcases event with name | message | files
  · rw [← h]
    exact gitAdd_initialized r.git r.files name
  · rcases gitCommit_cases r.git r.files message with ⟨-, hnone⟩ | ⟨-, hash, g', hsome, hg⟩
    · simp only [step, hnone]
      exact h
    · simp only [step, hsome]
      exact hg.initialized.trans h
  · exact h

end Repository

/-- After any run from an initialised repository the status is clean exactly where every tracked
name has a file that reads as the last commit recorded it, and a commit that succeeds leaves it
clean. -/
theorem status_exact (g : Git) (files : Ramfs) (events : List GitEvent) :
    let r := Machine.run Repository.step ⟨g.gitRepositoryInit, files, []⟩ events
    (r.git.gitRepositoryDirty r.files = false
        ↔ ∀ name, r.git.gitIsTracked name = true →
          ∃ data, fileView r.files name = some data
            ∧ (r.history[0]?).bind (fun head => head.contents name) = some data)
      ∧ (∀ name, r.git.headSnapshot name = (r.history[0]?).bind fun head => head.contents name)
      ∧ ∀ message hash g', r.git.gitCommit r.files message = (some hash, g') →
          g'.gitRepositoryDirty r.files = false := by
  intro r
  obtain ⟨⟨hholds, -⟩, hinit⟩ :
      (r.git.Holds r.history ∧ Linked r.history) ∧ r.git.initialized = true := by
    have hfresh : g.gitRepositoryInit.Holds [] := ⟨rfl, Nat.zero_le _, by simp⟩
    exact Machine.run_inv
      (I := fun r => (r.git.Holds r.history ∧ Linked r.history) ∧ r.git.initialized = true)
      Repository.step
      (fun r event h => ⟨r.step_holds event h.1, r.step_initialized event h.2⟩)
      events ⟨g.gitRepositoryInit, files, []⟩ ⟨⟨hfresh, by simp [Linked]⟩, rfl⟩
  refine ⟨hholds.dirty_iff hinit, hholds.headSnapshot, fun message hash g' hcommit => ?_⟩
  rcases gitCommit_cases r.git r.files message with ⟨-, hnone⟩ | ⟨-, hash', g'', hsome, hg⟩
  · rw [hnone] at hcommit
    cases hcommit
  · rw [hsome] at hcommit
    obtain ⟨rfl, rfl⟩ : hash' = hash ∧ g'' = g' := by simpa using hcommit
    exact hg.clean hholds hinit

end Git

end DemonOS
