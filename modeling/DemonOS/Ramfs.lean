import DemonOS.BoundedTable

/-!
# The RAM file system

`src/ramfs.cpp`: a name-keyed table of files over one byte arena that is only ever extended. A
file's bytes are a range of the arena, or module memory it was seeded with by reference. The read,
write and seed counters are left out.
-/

namespace DemonOS

def ramfsFiles : ℕ := 56
def ramfsDataMax : ℕ := 196608
def ramfsStorageMax : ℕ := 1048576

structure RamfsPayload where
  offset : ℕ := 0
  capacity : ℕ := 0
  length : ℕ := 0
  externalData : Option (List UInt8) := none
  deriving Inhabited

structure Ramfs where
  table : BoundedTable RamfsPayload ramfsFiles := .empty
  storage : ℕ → UInt8 := fun _ => 0
  storageUsed : ℕ := 0

namespace Ramfs

def slash : UInt8 := 0x2F
def dot : UInt8 := 0x2E

def validCharacter (c : UInt8) : Bool :=
  (0x61 ≤ c && c ≤ 0x7A) || (0x41 ≤ c && c ≤ 0x5A) || (0x30 ≤ c && c ≤ 0x39)
    || c == dot || c == 0x5F || c == 0x2D

def validSegment (segment : List UInt8) : Bool :=
  !segment.isEmpty && segment != [dot] && segment != [dot, dot] && segment.all validCharacter

/-- The cursor loop of `valid_name`: `segment` holds the characters since the last slash. -/
def validSegments (segment : List UInt8) : List UInt8 → Bool
  | [] => validSegment segment
  | c :: cs =>
    if c = slash then validSegment segment && validSegments [] cs
    else validSegments (segment ++ [c]) cs

def validName (name : List UInt8) : Bool :=
  if name.length = 0 ∨ nameMax < name.length then false
  else
    let path := if name.head? = some slash then name.tail else name
    !path.isEmpty && validSegments [] path

/-- `store`: into the file's range where the data fits it, else into fresh arena. -/
def store (fs : Ramfs) (id : ℕ) (data : List UInt8) : Option Ramfs :=
  match fs.table.payloadFor id with
  | none => none
  | some file =>
    if file.externalData.isSome ∨ ramfsDataMax < data.length then none
    else
      let put (file : RamfsPayload) (used : ℕ) : Ramfs :=
        { table := fs.table.setPayload id { file with length := data.length }
          storage := fun a =>
            if file.offset ≤ a ∧ a < file.offset + data.length then data.getD (a - file.offset) 0
            else fs.storage a
          storageUsed := used }
      if file.capacity < data.length then
        if ramfsStorageMax - fs.storageUsed < data.length then none
        else some (put { file with offset := fs.storageUsed, capacity := data.length }
          (fs.storageUsed + data.length))
      else some (put file fs.storageUsed)

def ramfsOpen (fs : Ramfs) (name : List UInt8) (create : Bool) : Option (ℕ × Ramfs) :=
  if !validName name then none
  else match fs.table.openName name create with
    | none => none
    | some (id, t) => some (id, { fs with table := t })

def ramfsDelete (fs : Ramfs) (name : List UInt8) : Option Ramfs :=
  if !validName name then none
  else match fs.table.find name with
    | none => none
    | some id => (fs.table.release id).map fun t => { fs with table := t }

def ramfsRename (fs : Ramfs) (oldName newName : List UInt8) : Option Ramfs :=
  if !validName oldName || !validName newName then none
  else match fs.table.find newName with
    | some _ => none
    | none =>
      match fs.table.find oldName with
      | none => none
      | some id => (fs.table.rename id newName).map fun t => { fs with table := t }

def ramfsWrite (fs : Ramfs) (id : ℕ) (data : List UInt8) : Option Ramfs := fs.store id data

/-- `ramfs_seed`. A file the call creates stays even where its bytes do not fit. -/
def ramfsSeed (fs : Ramfs) (name data : List UInt8) : Bool × Ramfs :=
  if ramfsDataMax < data.length then (false, fs)
  else match fs.ramfsOpen name true with
    | none => (false, fs)
    | some (id, fs') =>
      match fs'.store id data with
      | none => (false, fs')
      | some fs'' => (true, fs'')

/-- `ramfs_seed_reference`: the file's bytes stay in the module they came in. -/
def ramfsSeedReference (fs : Ramfs) (name data : List UInt8) : Bool × Ramfs :=
  match fs.ramfsOpen name true with
  | none => (false, fs)
  | some (id, fs') =>
    match fs'.table.payloadFor id with
    | none => (false, fs')
    | some file =>
      if file.length ≠ 0 ∨ file.capacity ≠ 0 ∨ file.externalData.isSome then (false, fs')
      else
        let seeded := { file with externalData := some data, length := data.length }
        (true, { fs' with table := fs'.table.setPayload id seeded })

/-- Byte `i` of the file. -/
def byteAt (fs : Ramfs) (file : RamfsPayload) (i : ℕ) : UInt8 :=
  match file.externalData with
  | some data => data.getD i 0
  | none => fs.storage (file.offset + i)

/-- `ramfs_read_range`: at most `capacity` bytes from `offset` on. -/
def ramfsReadRange (fs : Ramfs) (id offset capacity : ℕ) : Option (List UInt8) :=
  match fs.table.payloadFor id with
  | none => none
  | some file =>
    if file.length < offset then none
    else some ((List.range (min (file.length - offset) capacity)).map
      fun i => fs.byteAt file (offset + i))

def ramfsSize (fs : Ramfs) (id : ℕ) : Option ℕ := (fs.table.payloadFor id).map (·.length)

/-- `ramfs_view`: the whole of the file. -/
def ramfsView (fs : Ramfs) (id : ℕ) : Option (List UInt8) :=
  (fs.table.payloadFor id).map fun file => (List.range file.length).map (fs.byteAt file)

/-- `child_of`: the component of `name` directly below `dir`, and whether the name ends there. -/
def childOf (name dir : List UInt8) : Option (List UInt8 × Bool) :=
  let path := if name.head? = some slash then name.tail else name
  let rest : Option (List UInt8) :=
    if dir.isEmpty then some path
    else if path.length ≤ dir.length then none
    else if path.take dir.length != dir || path[dir.length]? != some slash then none
    else some (path.drop (dir.length + 1))
  match rest with
  | none => none
  | some [] => none
  | some (c :: cs) =>
    let child := (c :: cs).takeWhile (· != slash)
    some (child, child.length == (c :: cs).length)

/-- The entry file `id` contributes to a listing of `dir`: the child's name, its length and whether
it is a directory, a directory counting once, for the lowest id that reaches it. -/
def listEntry (fs : Ramfs) (dir : List UInt8) (id : ℕ) : Option (List UInt8 × ℕ × Bool) :=
  match fs.table.payloadFor id with
  | none => none
  | some file =>
    match childOf (fs.table.slots (id - 1)).name dir with
    | none => none
    | some (child, isLeaf) =>
      let earlier := (List.range (id - 1)).any fun i => (fs.table.slots i).used &&
        (childOf (fs.table.slots i).name dir).any fun c => c.1 == child
      if !isLeaf && earlier then none
      else some (child, if isLeaf then file.length else 0, !isLeaf)

/-- `ramfs_list`: the `index`-th entry of the directory `prefix` names. -/
def ramfsList (fs : Ramfs) (directory : List UInt8) (index : ℕ) :
    Option (List UInt8 × ℕ × Bool) :=
  let dir := if directory.head? = some slash then directory.tail else directory
  ((List.range ramfsFiles).filterMap fun i => fs.listEntry dir (i + 1))[index]?

end Ramfs

end DemonOS
