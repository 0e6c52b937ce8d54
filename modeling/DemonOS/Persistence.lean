import DemonOS.Lib.LittleEndian
import DemonOS.Xterm.Storage

/-!
# The saved configuration of Butterscotch

`ports/butterscotch/platform/persistence.c` over the file calls of `src/user/portkit.c`. A save
keeps the state after each of its storage calls, where the process may be terminated. A handle that
portkit does not have is one that resolves to nothing.
-/

namespace DemonOS.Persistence

open Xterm

structure ButterscotchConfig where
  gameId : UInt32
  windowWidth : UInt32
  windowHeight : UInt32
  masterGainQ8 : UInt16
  fullscreen : Bool
  deriving DecidableEq

/-- `valid`. -/
def ButterscotchConfig.Valid (config : ButterscotchConfig) : Prop :=
  160 ≤ config.windowWidth ∧ config.windowWidth ≤ 8192 ∧ 120 ≤ config.windowHeight
    ∧ config.windowHeight ≤ 8192 ∧ config.masterGainQ8 ≤ 256

instance (config : ButterscotchConfig) : Decidable config.Valid :=
  inferInstanceAs (Decidable (_ ∧ _ ∧ _ ∧ _ ∧ _))

def configBytes : ℕ := 32

def checksum (bytes : ℕ → UInt8) (count : ℕ) : UInt32 :=
  (List.range count).foldl (fun hash i => (hash ^^^ (bytes i).toUInt32) * 16777619) 2166136261

/-- The bytes before the checksum. -/
def encodeFields (config : ButterscotchConfig) : ℕ → UInt8 :=
  let bytes : ℕ → UInt8 := fun i => [0x42, 0x53, 0x43, 0x46].getD i 0
  let bytes := LittleEndian.store bytes 4 4 1
  let bytes := LittleEndian.store bytes 8 4 config.gameId.toNat
  let bytes := LittleEndian.store bytes 12 4 config.windowWidth.toNat
  let bytes := LittleEndian.store bytes 16 4 config.windowHeight.toNat
  let bytes := LittleEndian.store bytes 20 2 config.masterGainQ8.toNat
  LittleEndian.store bytes 22 2 (if config.fullscreen then 1 else 0)

def encode (config : ButterscotchConfig) : Option (List UInt8) :=
  if config.Valid then
    let bytes := encodeFields config
    let bytes := LittleEndian.store bytes 28 4 (checksum bytes 28).toNat
    some ((List.range configBytes).map bytes)
  else none

def decode (data : List UInt8) : Option ButterscotchConfig :=
  let bytes : ℕ → UInt8 := fun i => data.getD i 0
  if bytes 0 ≠ 0x42 ∨ bytes 1 ≠ 0x53 ∨ bytes 2 ≠ 0x43 ∨ bytes 3 ≠ 0x46
      ∨ LittleEndian.load bytes 4 4 ≠ 1 ∨ LittleEndian.load bytes 28 4 ≠ (checksum bytes 28).toNat
      ∨ 1 < LittleEndian.load bytes 22 2 then none
  else
    let config : ButterscotchConfig :=
      { gameId := UInt32.ofNat (LittleEndian.load bytes 8 4)
        windowWidth := UInt32.ofNat (LittleEndian.load bytes 12 4)
        windowHeight := UInt32.ofNat (LittleEndian.load bytes 16 4)
        masterGainQ8 := UInt16.ofNat (LittleEndian.load bytes 20 2)
        fullscreen := LittleEndian.load bytes 22 2 ≠ 0 }
    if config.Valid then some config else none

/-- `demon_handle_query` of the size of a file. -/
def demonHandleQuery (s : Storage) (handle : ℕ) : Option ℕ :=
  (s.resolveObject handle rightQuery .file).bind s.files.ramfsSize

def demonHandleReadAt (s : Storage) (handle capacity offset : ℕ) : Option (List UInt8) :=
  (s.resolveObject handle rightRead .file).bind fun id => copyRamfsToUser s.files id offset capacity

inductive StorageCall
  | create
  | write
  | close
  | delete
  | rename
  | deleteTemp
  deriving DecidableEq

structure Saved where
  success : Bool
  calls : List (StorageCall × Storage)

/-- `DemonButterscotchPersistence_save`, with portkit's handle of the storage service. -/
def save (s : Storage) (storage : ℕ) (path tempPath : List UInt8) (config : ButterscotchConfig) :
    Saved :=
  match encode config with
  | none => ⟨false, []⟩
  | some bytes =>
    match s.demonFileOpen storage tempPath true with
    | (none, created) => ⟨false, [(.create, created)]⟩
    | (some handle, created) =>
      let written := created.demonHandleWrite handle bytes
      let closed := written.2.demonHandleClose handle
      let calls := [(.create, created), (.write, written.2), (.close, closed)]
      if written.1 ≠ some bytes.length then
        ⟨false, calls ++ [(.deleteTemp, (closed.demonFileDelete storage tempPath).2)]⟩
      else
        let deleted := (closed.demonFileDelete storage path).2
        let renamed := deleted.demonFileRename storage tempPath path
        let calls := calls ++ [(.delete, deleted), (.rename, renamed.2)]
        if renamed.1 = true then ⟨true, calls⟩
        else ⟨false, calls ++ [(.deleteTemp, (renamed.2.demonFileDelete storage tempPath).2)]⟩

/-- `DemonButterscotchPersistence_load`. -/
def load (s : Storage) (storage : ℕ) (path : List UInt8) : Option ButterscotchConfig × Storage :=
  match s.demonFileOpen storage path false with
  | (none, s) => (none, s)
  | (some handle, s) =>
    let config := (demonHandleQuery s handle).bind fun size =>
      if size = configBytes then
        (demonHandleReadAt s handle configBytes 0).bind fun bytes =>
          if bytes.length = configBytes then decode bytes else none
      else none
    (config, s.demonHandleClose handle)

end DemonOS.Persistence
