import DemonOS.Syscall

/-!
# Reading files in chunks

`copy_ramfs_to_user` reads a file through a buffer of 4096 bytes. The loop ends because a turn that
goes on has moved at least one byte, and what it leaves in the memory of the process is what one
read of the whole would have (`copyTurns_eq`).
-/

namespace DemonOS

def storageBounceBytes : ℕ := 4096

def putBytes (m : ℕ → UInt8) (a : ℕ) (bytes : List UInt8) : ℕ → UInt8 := fun b =>
  if a ≤ b ∧ b < a + bytes.length then bytes.getD (b - a) 0 else m b

def Ramfs.bytesFrom (fs : Ramfs) (file : RamfsPayload) (start count : ℕ) : List UInt8 :=
  (List.range count).map fun i => fs.byteAt file (start + i)

def copyTurns (fs : Ramfs) (id offset destination capacity copied : ℕ) (m : ℕ → UInt8) :
    Bool × ℕ × (ℕ → UInt8) :=
  if copied < capacity then
    if 2 ^ 64 - 1 - offset < copied then (false, copied, m)
    else
      match fs.ramfsReadRange id (offset + copied) (min (capacity - copied) storageBounceBytes) with
      | none => (false, copied, m)
      | some received =>
        if received.length < min (capacity - copied) storageBounceBytes then
          (true, copied + received.length, putBytes m (destination + copied) received)
        else copyTurns fs id offset destination capacity (copied + received.length)
          (putBytes m (destination + copied) received)
  else (true, copied, m)
termination_by capacity - copied
decreasing_by
  unfold storageBounceBytes at *
  omega

def readOnce (fs : Ramfs) (id offset destination capacity : ℕ) (m : ℕ → UInt8) :
    Bool × ℕ × (ℕ → UInt8) :=
  match fs.ramfsReadRange id offset capacity with
  | none => (false, 0, m)
  | some bytes => (true, bytes.length, putBytes m destination bytes)

theorem putBytes_nil (m : ℕ → UInt8) (a : ℕ) : putBytes m a [] = m := by
  funext b
  unfold putBytes
  rw [if_neg (by simp)]

theorem putBytes_append (m : ℕ → UInt8) (a : ℕ) (bytes more : List UInt8) :
    putBytes (putBytes m a bytes) (a + bytes.length) more = putBytes m a (bytes ++ more) := by
  funext b
  unfold putBytes
  rw [List.length_append]
  by_cases hmore : a + bytes.length ≤ b ∧ b < a + bytes.length + more.length
  · rw [if_pos hmore, if_pos (by omega), List.getD_eq_getElem?_getD, List.getD_eq_getElem?_getD,
      List.getElem?_append_right (by omega), Nat.sub_sub]
  · rw [if_neg hmore]
    by_cases hbytes : a ≤ b ∧ b < a + bytes.length
    · rw [if_pos hbytes, if_pos (by omega), List.getD_eq_getElem?_getD,
        List.getD_eq_getElem?_getD, List.getElem?_append_left (by omega)]
    · rw [if_neg hbytes, if_neg (by omega)]

theorem putBytes_outside {m : ℕ → UInt8} {a b : ℕ} {bytes : List UInt8}
    (h : b < a ∨ a + bytes.length ≤ b) : putBytes m a bytes b = m b := if_neg (by omega)

namespace Ramfs

theorem length_bytesFrom (fs : Ramfs) (file : RamfsPayload) (start count : ℕ) :
    (fs.bytesFrom file start count).length = count := by
  unfold bytesFrom
  rw [List.length_map, List.length_range]

theorem bytesFrom_append (fs : Ramfs) (file : RamfsPayload) (start count more : ℕ) :
    fs.bytesFrom file start count ++ fs.bytesFrom file (start + count) more
      = fs.bytesFrom file start (count + more) := by
  unfold bytesFrom
  rw [List.range_add, List.map_append, List.map_map]
  refine congrArg (_ ++ ·) (List.map_congr_left fun i _ => ?_)
  rw [Function.comp_apply, Nat.add_assoc]

theorem ramfsReadRange_eq {fs : Ramfs} {id : ℕ} {file : RamfsPayload}
    (hfile : fs.table.payloadFor id = some file) (offset capacity : ℕ) :
    fs.ramfsReadRange id offset capacity
      = if file.length < offset then none
        else some (fs.bytesFrom file offset (min (file.length - offset) capacity)) := by
  unfold ramfsReadRange
  rw [hfile]
  rfl

end Ramfs

theorem copyTurns_rest {fs : Ramfs} {id : ℕ} {file : RamfsPayload}
    (hfile : fs.table.payloadFor id = some file) (hsize : file.length < 2 ^ 64)
    (offset destination capacity : ℕ) : ∀ (copied : ℕ) (m : ℕ → UInt8),
    offset + copied ≤ file.length → copied ≤ capacity →
      copyTurns fs id offset destination capacity copied m
        = (true, min (file.length - offset) capacity,
          putBytes m (destination + copied) (fs.bytesFrom file (offset + copied)
            (min (file.length - offset) capacity - copied))) := by
  intro copied
  induction hleft : capacity - copied using Nat.strong_induction_on generalizing copied with
  | _ left ih =>
    intro m hoffset hcopied
    unfold copyTurns
    by_cases hmore : copied < capacity
    · rw [if_pos hmore, if_neg (by omega), Ramfs.ramfsReadRange_eq hfile, if_neg (by omega)]
      dsimp only
      have hlength := fs.length_bytesFrom file (offset + copied)
        (min (file.length - (offset + copied)) (min (capacity - copied) storageBounceBytes))
      rw [hlength]
      by_cases hshort : min (file.length - (offset + copied))
          (min (capacity - copied) storageBounceBytes)
          < min (capacity - copied) storageBounceBytes
      · -- the file ends before the chunk does
        have hcount : min (file.length - (offset + copied))
            (min (capacity - copied) storageBounceBytes)
            = min (file.length - offset) capacity - copied := by omega
        rw [if_pos hshort, hcount,
          show copied + (min (file.length - offset) capacity - copied)
            = min (file.length - offset) capacity by omega]
      · have hchunk : min (file.length - (offset + copied))
            (min (capacity - copied) storageBounceBytes)
            = min (capacity - copied) storageBounceBytes := by omega
        have hpos : 0 < min (capacity - copied) storageBounceBytes := by
          unfold storageBounceBytes
          omega
        rw [if_neg hshort, hchunk]
        generalize hc : min (capacity - copied) storageBounceBytes = chunk at *
        rw [ih (capacity - (copied + chunk)) (by omega) (copied + chunk) rfl _ (by omega)
          (by omega), ← Nat.add_assoc destination]
        have hput := putBytes_append m (destination + copied)
          (fs.bytesFrom file (offset + copied) chunk)
          (fs.bytesFrom file (offset + copied + chunk)
            (min (file.length - offset) capacity - (copied + chunk)))
        rw [Ramfs.length_bytesFrom, Ramfs.bytesFrom_append,
          show chunk + (min (file.length - offset) capacity - (copied + chunk))
            = min (file.length - offset) capacity - copied by omega] at hput
        rw [← Nat.add_assoc offset, hput]
    · have hend : min (file.length - offset) capacity = copied := by omega
      rw [if_neg hmore, hend, Nat.sub_self]
      simp only [Ramfs.bytesFrom, List.range_zero, List.map_nil, putBytes_nil]

/-- Every read in chunks leaves what one read of the whole leaves. -/
theorem copyTurns_eq {fs : Ramfs} {id : ℕ}
    (hsize : ∀ file, fs.table.payloadFor id = some file → file.length < 2 ^ 64)
    (offset destination : ℕ) {capacity : ℕ} (hcapacity : 0 < capacity)
    (m : ℕ → UInt8) :
    copyTurns fs id offset destination capacity 0 m
      = readOnce fs id offset destination capacity m := by
  unfold readOnce
  rcases hfile : fs.table.payloadFor id with _ | file
  · unfold copyTurns Ramfs.ramfsReadRange
    rw [if_pos hcapacity, hfile]
    simp
  · rw [Ramfs.ramfsReadRange_eq hfile]
    split_ifs with hpast
    · unfold copyTurns
      rw [if_pos hcapacity, Ramfs.ramfsReadRange_eq hfile, Nat.add_zero, if_pos hpast]
      simp
    · rw [copyTurns_rest hfile (hsize file hfile) offset destination capacity 0 m (by omega)
        (Nat.zero_le _), Nat.add_zero, Nat.add_zero, Nat.sub_zero]
      dsimp only
      rw [Ramfs.length_bytesFrom]

theorem copyChunks_rest {fs : Ramfs} {id : ℕ} {file : RamfsPayload}
    (hfile : fs.table.payloadFor id = some file) (hsize : file.length < 2 ^ 64)
    (offset capacity : ℕ) : ∀ (fuel : ℕ) (copied : List UInt8),
    capacity - copied.length ≤ storageBounceBytes * fuel → offset + copied.length ≤ file.length →
      copied.length ≤ capacity →
      copyChunks fs id offset capacity fuel copied
        = some (copied ++ fs.bytesFrom file (offset + copied.length)
          (min (file.length - offset) capacity - copied.length))
  | 0, copied, hfuel, hoffset, hcopied => by
    have hend : min (file.length - offset) capacity - copied.length = 0 := by omega
    rw [copyChunks, hend]
    simp [Ramfs.bytesFrom]
  | fuel + 1, copied, hfuel, hoffset, hcopied => by
    unfold storageBounceBytes at hfuel
    unfold copyChunks
    by_cases hmore : copied.length < capacity
    · rw [if_neg (by omega), if_neg (by omega)]
      dsimp only
      rw [Ramfs.ramfsReadRange_eq hfile, if_neg (by omega)]
      dsimp only
      rw [Ramfs.length_bytesFrom]
      by_cases hshort : min (file.length - (offset + copied.length))
          (min (capacity - copied.length) 4096) < min (capacity - copied.length) 4096
      · rw [if_pos hshort, show min (file.length - (offset + copied.length))
            (min (capacity - copied.length) 4096)
          = min (file.length - offset) capacity - copied.length by omega]
      · have hchunk : min (file.length - (offset + copied.length))
            (min (capacity - copied.length) 4096) = min (capacity - copied.length) 4096 := by omega
        rw [if_neg hshort, hchunk]
        generalize hc : min (capacity - copied.length) 4096 = chunk at *
        have hlength : (copied ++ fs.bytesFrom file (offset + copied.length) chunk).length
            = copied.length + chunk := by rw [List.length_append, Ramfs.length_bytesFrom]
        rw [copyChunks_rest hfile hsize offset capacity fuel _ (by
            rw [hlength]
            unfold storageBounceBytes
            omega) (by omega) (by omega), hlength, List.append_assoc, ← Nat.add_assoc,
          Ramfs.bytesFrom_append,
          show chunk + (min (file.length - offset) capacity - (copied.length + chunk))
            = min (file.length - offset) capacity - copied.length by omega]
    · have hend : min (file.length - offset) capacity - copied.length = 0 := by omega
      rw [if_pos (by omega), hend]
      simp [Ramfs.bytesFrom]

theorem copyRamfsToUser_eq {fs : Ramfs} {id : ℕ}
    (hsize : ∀ file, fs.table.payloadFor id = some file → file.length < 2 ^ 64)
    (offset : ℕ) {capacity : ℕ} (hcapacity : 0 < capacity) :
    copyRamfsToUser fs id offset capacity = fs.ramfsReadRange id offset capacity := by
  unfold copyRamfsToUser
  rcases hfile : fs.table.payloadFor id with _ | file
  · unfold copyChunks Ramfs.ramfsReadRange
    rw [hfile, if_neg (by simpa using hcapacity.ne')]
    simp
  · rw [Ramfs.ramfsReadRange_eq hfile]
    split_ifs with hpast
    · unfold copyChunks
      rw [if_neg (by simpa using hcapacity.ne'), if_neg (by simp)]
      dsimp only
      rw [Ramfs.ramfsReadRange_eq hfile, List.length_nil, Nat.add_zero, if_pos hpast]
    · rw [copyChunks_rest hfile (hsize file hfile) offset capacity _ [] (by
          unfold storageBounceBytes
          rw [List.length_nil]
          omega) (by rw [List.length_nil]; omega) (Nat.zero_le _)]
      simp

theorem readOnce_outside (fs : Ramfs) (id offset destination capacity : ℕ) (m : ℕ → UInt8)
    {a : ℕ} (ha : a < destination
      ∨ destination + (readOnce fs id offset destination capacity m).2.1 ≤ a) :
    (readOnce fs id offset destination capacity m).2.2 a = m a := by
  unfold readOnce at ha ⊢
  split at ha
  · rfl
  · exact putBytes_outside ha

/-- The chunked read is the read of the whole, in the memory and in what the system calls hand over,
and it writes nothing outside the bytes it returns. -/
theorem chunked_read_single {fs : Ramfs} {id : ℕ}
    (hsize : ∀ file, fs.table.payloadFor id = some file → file.length < 2 ^ 64)
    (offset destination : ℕ) {capacity : ℕ} (hcapacity : 0 < capacity)
    (m : ℕ → UInt8) :
    copyTurns fs id offset destination capacity 0 m
        = readOnce fs id offset destination capacity m
      ∧ copyRamfsToUser fs id offset capacity = fs.ramfsReadRange id offset capacity
      ∧ ∀ a, a < destination
          ∨ destination + (copyTurns fs id offset destination capacity 0 m).2.1 ≤ a →
        (copyTurns fs id offset destination capacity 0 m).2.2 a = m a := by
  have heq := copyTurns_eq hsize offset destination hcapacity m
  refine ⟨heq, copyRamfsToUser_eq hsize offset hcapacity, fun a ha => ?_⟩
  rw [heq] at ha ⊢
  exact readOnce_outside fs id offset destination capacity m ha

def smallFile : Ramfs := (Ramfs.ramfsSeed {} [0x61] [7, 8, 9]).2

theorem chunked_read_small : copyTurns smallFile 1 1 0x1000 8192 0 (fun _ => 0)
      = readOnce smallFile 1 1 0x1000 8192 (fun _ => 0) := by
  refine (chunked_read_single (fun file hfile => ?_) 1 0x1000 (by decide) _).1
  have : some (⟨0, 3, 3, none⟩ : RamfsPayload) = some file := hfile
  cases this
  decide

end DemonOS
