import DemonOS.Syscall

/-!
# Files as a program reaches them

The file calls of `include/demon/c_app.h` on behalf of one process: a handle of the storage service
is opened first, a file handle with it, and both take a slot of the process's capability table. The
buffers a program passes are its own, so the kernel finds them readable and writable
(`demonFileOpen_kernel` and the lemmas beside it compare the calls with the kernel's). `none` is
`UINT64_MAX`. The functions xterm gives the shell stand at the end.
-/

namespace DemonOS.Xterm

/-- What the file calls of the process `pid` work on. -/
structure Storage where
  pid : ℕ
  objects : Objects
  files : Ramfs

namespace Storage

def withCaps (s : Storage) (caps : Capabilities) : Storage :=
  { s with objects := { s.objects with caps := caps } }

def withFiles (s : Storage) (files : Ramfs) : Storage := { s with files := files }

def resolveObject (s : Storage) (handle : ℕ) (right : BitVec 32) (service : CapabilityService) :
    Option ℕ :=
  match s.objects.caps.capabilityResolveObject s.pid handle right with
  | none => none
  | some v => if v.service = service then some v.objectId else none

def opened (s : Storage) : Option (ℕ × Capabilities) → Option ℕ × Storage
  | none => (none, s)
  | some (handle, caps) => (some handle, s.withCaps caps)

def changed (s : Storage) : Option Ramfs → Bool × Storage
  | none => (false, s)
  | some files => (true, s.withFiles files)

def demonServiceOpen (s : Storage) (service : ℕ) : Option ℕ × Storage :=
  s.opened (s.objects.caps.capabilityOpen s.pid service)

/-- A file it creates stays even where no slot is left for its handle. -/
def demonFileOpen (s : Storage) (storage : ℕ) (name : List UInt8) (create : Bool) :
    Option ℕ × Storage :=
  match s.resolveObject storage rightOpen .storage with
  | none => (none, s)
  | some _ =>
    match s.files.ramfsOpen name create with
    | none => (none, s)
    | some (id, files) =>
      (s.withFiles files).opened (s.objects.caps.capabilityOpenFile s.pid id)

def demonHandleRead (s : Storage) (handle capacity : ℕ) : Option (List UInt8) :=
  match s.resolveObject handle rightRead .file with
  | none => none
  | some id => copyRamfsToUser s.files id 0 capacity

def demonHandleWrite (s : Storage) (handle : ℕ) (bytes : List UInt8) : Option ℕ × Storage :=
  match s.objects.caps.capabilityResolveObject s.pid handle rightWrite with
  | none => (none, s)
  | some v =>
    if v.service = .console then (some bytes.length, s)
    else if v.service = .file then
      match s.files.ramfsWrite v.objectId bytes with
      | none => (none, s)
      | some files => (some bytes.length, s.withFiles files)
    else (none, s)

def demonHandleClose (s : Storage) (handle : ℕ) : Storage :=
  match s.objects.capabilityClose s.pid handle with
  | none => s
  | some objects => { s with objects := objects }

def demonFileDelete (s : Storage) (storage : ℕ) (name : List UInt8) : Bool × Storage :=
  match s.resolveObject storage rightOpen .storage with
  | none => (false, s)
  | some _ => s.changed (s.files.ramfsDelete name)

def demonFileRename (s : Storage) (storage : ℕ) (oldName newName : List UInt8) : Bool × Storage :=
  match s.resolveObject storage rightOpen .storage with
  | none => (false, s)
  | some _ => s.changed (s.files.ramfsRename oldName newName)

/-- The service number xterm opens. -/
def storageService : ℕ := 4

def openFile (s : Storage) (name : List UInt8) (create : Bool) : Option ℕ × Storage :=
  match s.demonServiceOpen storageService with
  | (none, s) => (none, s)
  | (some storage, s) => s.demonFileOpen storage name create

/-! ## The shell's backend -/

/-- The bytes read and the length reported, which is their number. -/
def xtermShellReadFile (s : Storage) (path : List UInt8) (capacity : ℕ) :
    Option (List UInt8 × ℕ) × Storage :=
  match s.openFile path false with
  | (none, s) => (none, s)
  | (some handle, s) =>
    ((s.demonHandleRead handle capacity).map fun bytes => (bytes, bytes.length),
      s.demonHandleClose handle)

def xtermShellWriteFile (s : Storage) (path data : List UInt8) : Bool × Storage :=
  match s.openFile path true with
  | (none, s) => (false, s)
  | (some handle, s) =>
    match s.demonHandleWrite handle data with
    | (written, s) => (written.isSome, s.demonHandleClose handle)

def xtermShellDeleteFile (s : Storage) (path : List UInt8) : Bool × Storage :=
  match s.demonServiceOpen storageService with
  | (none, s) => (false, s)
  | (some storage, s) => s.demonFileDelete storage path

def xtermShellRenameFile (s : Storage) (oldPath newPath : List UInt8) : Bool × Storage :=
  match s.demonServiceOpen storageService with
  | (none, s) => (false, s)
  | (some storage, s) => s.demonFileRename storage oldPath newPath

end Storage

end DemonOS.Xterm
