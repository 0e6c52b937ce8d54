import DemonOS.Ramfs

/-!
# The version control of the kernel

`src/git.c`: the tracked names, the commits and the arena that their snapshots lie in. An array is a
function with the count of its elements in use beside it. The lengths of files add up in 64 bits,
as they lie in memory together.
-/

namespace DemonOS

def gitMaxTracked : ℕ := 8
def gitMaxCommits : ℕ := 16
def gitNameMax : ℕ := 63
def gitMessageMax : ℕ := 79
def gitSnapshotArenaBytes : ℕ := 8192

structure GitFileSnapshot where
  name : List UInt8 := []
  offset : ℕ := 0
  length : ℕ := 0

structure GitCommit where
  hash : UInt64 := 0
  parentHash : UInt64 := 0
  message : List UInt8 := []
  files : ℕ → GitFileSnapshot := fun _ => {}
  fileCount : ℕ := 0

structure Git where
  initialized : Bool := false
  tracked : ℕ → List UInt8 := fun _ => []
  trackedCount : ℕ := 0
  commits : ℕ → GitCommit := fun _ => {}
  commitCount : ℕ := 0
  snapshotArena : ℕ → UInt8 := fun _ => 0
  snapshotUsed : ℕ := 0

namespace Git

def gitRepositoryInit (g : Git) : Git :=
  { g with trackedCount := 0, commitCount := 0, snapshotUsed := 0, initialized := true }

def gitIsTracked (g : Git) (name : List UInt8) : Bool :=
  (List.range g.trackedCount).any fun i => g.tracked i == name

def gitAdd (g : Git) (fs : Ramfs) (name : List UInt8) : Bool × Git :=
  if g.initialized = false ∨ name.length = 0 ∨ gitNameMax < name.length then (false, g)
  else match fs.ramfsOpen name false with
    | none => (false, g)
    | some _ =>
      if g.gitIsTracked name then (true, g)
      else if gitMaxTracked ≤ g.trackedCount then (false, g)
      else (true, { g with
        tracked := Function.update g.tracked g.trackedCount name
        trackedCount := g.trackedCount + 1 })

def gitTrackedEntry (g : Git) (index : ℕ) : Option (List UInt8) :=
  if g.trackedCount ≤ index then none else some (g.tracked index)

def hashBytes (hash : UInt64) (data : List UInt8) : UInt64 :=
  data.foldl (fun hash byte => (hash ^^^ byte.toUInt64) * 1099511628211) hash

def wordBytes (word : UInt64) : List UInt8 :=
  (List.range 8).map fun i => UInt8.ofNat (word.toNat / 2 ^ (8 * i))

def fileSize (fs : Ramfs) (name : List UInt8) : Option ℕ :=
  (fs.ramfsOpen name false).bind fun opened => fs.ramfsSize opened.1

def fileView (fs : Ramfs) (name : List UInt8) : Option (List UInt8) :=
  (fs.ramfsOpen name false).bind fun opened => fs.ramfsView opened.1

def snapshotOf (c : GitCommit) (name : List UInt8) : Option GitFileSnapshot :=
  ((List.range c.fileCount).map c.files).find? fun f => f.name == name

def snapshotData (g : Git) (f : GitFileSnapshot) : List UInt8 :=
  (List.range f.length).map fun b => g.snapshotArena (f.offset + b)

def headSnapshot (g : Git) (name : List UInt8) : Option (List UInt8) :=
  if g.commitCount = 0 then none
  else (snapshotOf (g.commits (g.commitCount - 1)) name).map g.snapshotData

def gitRepositoryDirty (g : Git) (fs : Ramfs) : Bool :=
  if g.initialized = false then false
  else if 0 < g.trackedCount ∧ g.commitCount = 0 then true
  else (List.range g.trackedCount).any fun i =>
    match fileView fs (g.tracked i), g.headSnapshot (g.tracked i) with
    | some current, some head => current != head
    | _, _ => true

/-- The loop of `git_commit` that measures the tracked files from `i` on. -/
def totalBytes (g : Git) (fs : Ramfs) : ℕ → ℕ → ℕ → Option ℕ
  | 0, _, total => some total
  | rest + 1, i, total =>
    match fileSize fs (g.tracked i) with
    | none => none
    | some length => totalBytes g fs rest (i + 1) (total + length)

/-- A file's bytes behind what the arena holds, and its snapshot in the commit that is made. -/
def putSnapshot (g : Git) (i : ℕ) (data : List UInt8) : Git :=
  let entry := g.commits g.commitCount
  { g with
    commits := Function.update g.commits g.commitCount { entry with
      files := Function.update entry.files i
        { name := g.tracked i, offset := g.snapshotUsed, length := data.length } }
    snapshotArena := fun a =>
      if g.snapshotUsed ≤ a ∧ a < g.snapshotUsed + data.length then
        data.getD (a - g.snapshotUsed) 0
      else g.snapshotArena a
    snapshotUsed := g.snapshotUsed + data.length }

/-- The loop of `git_commit` that copies the tracked files from `i` on. -/
def copyFiles (fs : Ramfs) : ℕ → ℕ → UInt64 → Git → Option UInt64 × Git
  | 0, _, hash, g => (some hash, g)
  | rest + 1, i, hash, g =>
    match fileView fs (g.tracked i) with
    | none => (none, g)
    | some data =>
      copyFiles fs rest (i + 1) (hashBytes (hashBytes hash (g.tracked i)) data)
        (g.putSnapshot i data)

def gitHeadHash (g : Git) : UInt64 :=
  if 0 < g.commitCount then (g.commits (g.commitCount - 1)).hash else 0

/-- `git_commit`: the hash of the commit if there is one. -/
def gitCommit (g : Git) (fs : Ramfs) (message : List UInt8) : Option UInt64 × Git :=
  if g.initialized = false ∨ g.trackedCount = 0 then (none, g)
  else
    let message := message.take gitMessageMax
    if gitMaxCommits ≤ g.commitCount then (none, g)
    else match g.totalBytes fs g.trackedCount 0 0 with
      | none => (none, g)
      | some total =>
        if (2 ^ 64 + gitSnapshotArenaBytes - g.snapshotUsed) % 2 ^ 64 < total then (none, g)
        else
          let parentHash := g.gitHeadHash
          let begun := { g with
            commits := Function.update g.commits g.commitCount
              { g.commits g.commitCount with
                parentHash := parentHash, message := message, fileCount := g.trackedCount } }
          let hash := hashBytes (hashBytes 1469598103934665603 (wordBytes parentHash)) message
          match copyFiles fs g.trackedCount 0 hash begun with
          | (none, g) => (none, g)
          | (some hash, g) =>
            (some hash, { g with
              commits := Function.update g.commits g.commitCount
                { g.commits g.commitCount with hash := hash }
              commitCount := g.commitCount + 1 })

def gitCommitCount (g : Git) : ℕ := g.commitCount

/-- `git_log_entry`: hash, parent and message of the commit so far behind HEAD. -/
def gitLogEntry (g : Git) (indexFromHead : ℕ) : Option (UInt64 × UInt64 × List UInt8) :=
  if g.commitCount ≤ indexFromHead then none
  else
    let entry := g.commits (g.commitCount - 1 - indexFromHead)
    some (entry.hash, entry.parentHash, entry.message)

def gitFindCommit (g : Git) (hash : UInt64) : Option ℕ :=
  ((List.range g.commitCount).find? fun i => (g.commits i).hash == hash).map
    fun i => g.commitCount - 1 - i

def gitCommitFile (g : Git) (commitIndex : ℕ) (name : List UInt8) : Option (List UInt8) :=
  if g.commitCount ≤ commitIndex then none
  else (snapshotOf (g.commits (g.commitCount - 1 - commitIndex)) name).map g.snapshotData

def gitTrackedBytes (g : Git) (fs : Ramfs) : ℕ :=
  (List.range g.trackedCount).foldl (fun total i => total + (fileSize fs (g.tracked i)).getD 0) 0

end Git

end DemonOS
