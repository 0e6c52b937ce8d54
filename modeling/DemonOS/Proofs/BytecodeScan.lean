import DemonOS.BytecodeScan
import Mathlib.Algebra.Order.Ring.Nat

/-!
# What the scan of bytecode accepts

The scan and the test of a branch's target walk over the same instructions (`boundaryLoop_splits`),
so code is accepted just where it splits into known instructions whose branches lead to starts of
instructions or to the end (`scan_accepts_iff`).
-/

namespace DemonOS

namespace BytecodeScan

variable {readUint32 : UInt8 → UInt8 → UInt8 → UInt8 → UInt32} {bytes : List UInt8}

variable (readUint32 bytes) in
inductive Splits : ℕ → List ℕ → Prop
  | done : Splits bytes.length []
  | cons {ip : ℕ} {instruction : UInt32} {extra : ℕ} {starts : List ℕ} :
    readAt readUint32 bytes ip = some instruction → extraSize instruction = some extra →
    Splits (ip + (4 + extra)) starts → Splits ip (ip :: starts)

variable {ip target extra : ℕ} {starts : List ℕ} {instruction : UInt32}

theorem Splits.le (h : Splits readUint32 bytes ip starts) : ip ≤ bytes.length := by
  induction h with
  | done => exact le_rfl
  | cons _ _ _ ih => omega

theorem Splits.first (h : Splits readUint32 bytes ip starts) (hip : ip < bytes.length) :
    ∃ instruction extra rest, starts = ip :: rest ∧ readAt readUint32 bytes ip = some instruction
      ∧ extraSize instruction = some extra ∧ Splits readUint32 bytes (ip + (4 + extra)) rest := by
  cases h with
  | done => exact absurd hip (lt_irrefl _)
  | cons hread hextra hrest => exact ⟨_, _, _, rfl, hread, hextra, hrest⟩

theorem Splits.starts_lt (h : Splits readUint32 bytes ip starts) :
    ∀ s ∈ starts, ip ≤ s ∧ s < bytes.length := by
  induction h with
  | done => exact nofun
  | cons _ _ hrest ih =>
    have hle := hrest.le
    rintro s (_ | ⟨_, hs⟩)
    · omega
    · have := ih s hs
      omega

variable (readUint32) in
theorem readAt_isSome (h : ip + 4 ≤ bytes.length) :
    ∃ instruction, readAt readUint32 bytes ip = some instruction := by
  unfold readAt
  rw [List.getElem?_eq_getElem (by omega : ip < bytes.length),
    List.getElem?_eq_getElem (by omega : ip + 1 < bytes.length),
    List.getElem?_eq_getElem (by omega : ip + 2 < bytes.length),
    List.getElem?_eq_getElem (by omega : ip + 3 < bytes.length)]
  exact ⟨_, rfl⟩

variable (readUint32) in
theorem turn {α : Type} (bad : Option α) (good : UInt32 → ℕ → Option α) (hip : ip < bytes.length) :
    ((if bytes.length - ip < 4 then bad
      else (readAt readUint32 bytes ip).bind fun instruction =>
        (extraSize instruction).elim bad fun extra =>
          if bytes.length - ip < 4 + extra then bad else good instruction extra) = bad
      ∧ ∀ starts, ¬Splits readUint32 bytes ip starts)
    ∨ ∃ instruction extra, (if bytes.length - ip < 4 then bad
      else (readAt readUint32 bytes ip).bind fun instruction =>
        (extraSize instruction).elim bad fun extra =>
          if bytes.length - ip < 4 + extra then bad else good instruction extra)
        = good instruction extra
      ∧ readAt readUint32 bytes ip = some instruction ∧ extraSize instruction = some extra
      ∧ ip + (4 + extra) ≤ bytes.length := by
  by_cases hfour : bytes.length - ip < 4
  · rw [if_pos hfour]
    refine .inl ⟨rfl, fun starts h => ?_⟩
    obtain ⟨_, _, _, -, -, -, hrest⟩ := h.first hip
    have := hrest.le
    omega
  obtain ⟨instruction, hread⟩ := readAt_isSome readUint32
    (by omega : ip + 4 ≤ bytes.length)
  have hfirst : ∀ starts, Splits readUint32 bytes ip starts → ∃ extra,
      extraSize instruction = some extra ∧ ip + (4 + extra) ≤ bytes.length := by
    intro starts h
    obtain ⟨_, extra, _, -, hread', hextra, hrest⟩ := h.first hip
    rw [hread] at hread'
    obtain rfl := Option.some.inj hread'
    exact ⟨extra, hextra, hrest.le⟩
  rw [if_neg hfour, hread, Option.bind_some]
  rcases hextra : extraSize instruction with _ | extra
  · refine .inl ⟨rfl, fun starts h => ?_⟩
    obtain ⟨extra, hextra', -⟩ := hfirst starts h
    rw [hextra] at hextra'
    cases hextra'
  · rw [Option.elim_some]
    by_cases hfits : bytes.length - ip < 4 + extra
    · rw [if_pos hfits]
      refine .inl ⟨rfl, fun starts h => ?_⟩
      obtain ⟨extra', hextra', hle⟩ := hfirst starts h
      rw [hextra] at hextra'
      obtain rfl := Option.some.inj hextra'
      omega
    · rw [if_neg hfits]
      exact .inr ⟨instruction, extra, rfl, rfl, hextra, by omega⟩

variable (readUint32) in
theorem boundaryLoop_spec (hlen : bytes.length < 2 ^ 32) (target : ℕ) : ∀ (rounds ip : ℕ),
    bytes.length - ip < rounds → ip ≤ bytes.length →
      ∃ found, boundaryLoop readUint32 bytes target rounds ip = some found
        ∧ ∀ starts, Splits readUint32 bytes ip starts → (found = true ↔ target ∈ starts)
  | rounds + 1, ip, hrounds, hle => by
    unfold boundaryLoop
    by_cases hip : ip < bytes.length
    · rw [if_pos hip]
      by_cases htarget : ip = target
      · rw [if_pos htarget]
        refine ⟨true, rfl, fun starts h => iff_of_true rfl ?_⟩
        obtain ⟨_, _, _, rfl, -⟩ := h.first hip
        exact htarget ▸ List.mem_cons_self
      · rw [if_neg htarget]
        rcases turn readUint32 (some false)
          (fun _ extra => boundaryLoop readUint32 bytes target rounds ((ip + (4 + extra)) % 2 ^ 32))
          hip with ⟨heq, hno⟩ | ⟨instruction, extra, heq, hread, hextra, hfits⟩ <;> rw [heq]
        · exact ⟨false, rfl, fun starts h => absurd h (hno starts)⟩
        · rw [Nat.mod_eq_of_lt (by omega)]
          obtain ⟨found, hfound, hall⟩ :=
            boundaryLoop_spec hlen target rounds (ip + (4 + extra)) (by omega) hfits
          refine ⟨found, hfound, fun starts h => ?_⟩
          obtain ⟨_, _, rest, rfl, hread', hextra', hrest⟩ := h.first hip
          obtain rfl := Option.some.inj (hread.symm.trans hread')
          obtain rfl := Option.some.inj (hextra.symm.trans hextra')
          rw [hall rest hrest, List.mem_cons, or_iff_right (Ne.symm htarget)]
    · rw [if_neg hip]
      refine ⟨false, rfl, fun starts h => iff_of_false Bool.false_ne_true fun hmem => ?_⟩
      have := h.starts_lt target hmem
      omega

variable (readUint32 bytes) in
/-- What the scan asks of an instruction. -/
def Passes (ip : ℕ) : Prop :=
  ∃ instruction kind, readAt readUint32 bytes ip = some instruction
    ∧ kindOf (instruction >>> 24) = some kind
    ∧ (kind = .branch → branchFits readUint32 bytes ip instruction = some true)

theorem branchFits_isSome (hlen : bytes.length < 2 ^ 32) (ip : ℕ) (instruction : UInt32) :
    ∃ fits, branchFits readUint32 bytes ip instruction = some fits := by
  unfold branchFits isBoundary
  dsimp only
  split_ifs
  · exact ⟨true, rfl⟩
  · exact ⟨false, rfl⟩
  · exact ⟨true, rfl⟩
  · obtain ⟨found, hfound, -⟩ := boundaryLoop_spec readUint32 hlen
      (ip + jumpOffset instruction).toNat (bytes.length + 1) 0 (by omega) (Nat.zero_le _)
    exact ⟨found, hfound⟩

structure Counted (s s' : DemonBytecodeStats) (instructions operands : ℕ) : Prop where
  instructions : s'.instructions = s.instructions + UInt32.ofNat instructions
  operands : s'.operandBytes = s.operandBytes + UInt32.ofNat operands

theorem count_keeps (s : DemonBytecodeStats) (kind : Kind) :
    (count s kind).instructions = s.instructions
      ∧ (count s kind).operandBytes = s.operandBytes := by
  cases kind <;> exact ⟨rfl, rfl⟩

theorem add_ofNat_add (a : UInt32) (m n : ℕ) :
    a + UInt32.ofNat m + UInt32.ofNat n = a + UInt32.ofNat (n + m) := by
  rw [UInt32.add_assoc, UInt32.add_comm (UInt32.ofNat m), UInt32.ofNat_add]

variable (readUint32) in
theorem scanLoop_spec (hlen : bytes.length < 2 ^ 32) : ∀ (rounds ip : ℕ) (s : DemonBytecodeStats),
    bytes.length - ip < rounds → ip ≤ bytes.length →
      ∃ accepted s', scanLoop readUint32 bytes rounds ip s = some (accepted, s')
        ∧ (accepted = true → ∃ starts operands, Splits readUint32 bytes ip starts
          ∧ (∀ i ∈ starts, Passes readUint32 bytes i)
          ∧ 4 * starts.length + operands = bytes.length - ip ∧ Counted s s' starts.length operands)
        ∧ (accepted = false → ∀ starts, Splits readUint32 bytes ip starts →
          ∃ i ∈ starts, ¬Passes readUint32 bytes i)
  | rounds + 1, ip, s, hrounds, hle => by
    unfold scanLoop
    by_cases hip : ip < bytes.length
    · rw [if_pos hip]
      rcases turn readUint32 (some (false, s)) _ hip with
        ⟨heq, hno⟩ | ⟨instruction, extra, heq, hread, hextra, hfits⟩ <;> rw [heq]
      · exact ⟨false, s, rfl, nofun, fun _ starts h => absurd h (hno starts)⟩
      have hfirst : ∀ starts, Splits readUint32 bytes ip starts →
          ∃ rest, starts = ip :: rest ∧ Splits readUint32 bytes (ip + (4 + extra)) rest := by
        intro starts h
        obtain ⟨_, _, rest, hstarts, hread', hextra', hrest⟩ := h.first hip
        obtain rfl := Option.some.inj (hread.symm.trans hread')
        obtain rfl := Option.some.inj (hextra.symm.trans hextra')
        exact ⟨rest, hstarts, hrest⟩
      -- An instruction that does not pass is among the starts, whatever follows it.
      have hfails : ¬Passes readUint32 bytes ip → ∀ starts, Splits readUint32 bytes ip starts →
          ∃ i ∈ starts, ¬Passes readUint32 bytes i := by
        intro hnot starts h
        obtain ⟨rest, rfl, -⟩ := hfirst starts h
        exact ⟨ip, List.mem_cons_self, hnot⟩
      dsimp only
      rcases hkind : kindOf (instruction >>> 24) with _ | kind
      · refine ⟨false, _, rfl, nofun, fun _ => hfails ?_⟩
        rintro ⟨_, _, hread', hkind', -⟩
        obtain rfl := Option.some.inj (hread.symm.trans hread')
        rw [hkind] at hkind'
        cases hkind'
      rw [Option.elim_some]
      obtain ⟨fits, hbranch⟩ : ∃ fits, (if kind = .branch then branchFits readUint32 bytes ip instruction
          else some true) = some fits := by
        split_ifs
        · exact branchFits_isSome hlen ip instruction
        · exact ⟨true, rfl⟩
      rw [hbranch, Option.bind_some]
      cases fits
      · refine ⟨false, _, rfl, nofun, fun _ => hfails ?_⟩
        rintro ⟨_, _, hread', hkind', hpasses⟩
        obtain rfl := Option.some.inj (hread.symm.trans hread')
        obtain rfl := Option.some.inj (hkind.symm.trans hkind')
        by_cases hjumps : kind = .branch
        · rw [if_pos hjumps, hpasses hjumps] at hbranch
          cases hbranch
        · rw [if_neg hjumps] at hbranch
          cases hbranch
      · rw [if_pos rfl, Nat.mod_eq_of_lt (by omega)]
        obtain ⟨accepted, s', hscan, hyes, hno⟩ := scanLoop_spec hlen rounds (ip + (4 + extra))
          (count { s with
            instructions := s.instructions + 1
            operandBytes := s.operandBytes + UInt32.ofNat extra } kind) (by omega) hfits
        refine ⟨accepted, s', hscan, fun haccepted => ?_, fun hrefused starts h => ?_⟩
        · obtain ⟨rest, operands, hsplits, hall, hsum, hcounted⟩ := hyes haccepted
          obtain ⟨hinstructions, hoperands⟩ := count_keeps { s with
            instructions := s.instructions + 1
            operandBytes := s.operandBytes + UInt32.ofNat extra } kind
          refine ⟨ip :: rest, operands + extra, .cons hread hextra hsplits, ?_, ?_, ?_, ?_⟩
          · rintro i (_ | ⟨_, hi⟩)
            · refine ⟨instruction, kind, hread, hkind, fun hjumps => ?_⟩
              rw [if_pos hjumps] at hbranch
              exact hbranch
            · exact hall i hi
          · rw [List.length_cons]
            omega
          · rw [hcounted.instructions, hinstructions, List.length_cons]
            exact add_ofNat_add s.instructions 1 rest.length
          · rw [hcounted.operands, hoperands]
            exact add_ofNat_add s.operandBytes extra operands
        · obtain ⟨rest, rfl, hrest⟩ := hfirst starts h
          obtain ⟨i, hi, hnot⟩ := hno hrefused rest hrest
          exact ⟨i, List.mem_cons_of_mem _ hi, hnot⟩
    · rw [if_neg hip]
      obtain rfl : ip = bytes.length := by omega
      refine ⟨true, s, by simp, fun _ => ⟨[], 0, .done, nofun, by simp, ?_, ?_⟩, nofun⟩
      · exact (UInt32.add_zero _).symm
      · exact (UInt32.add_zero _).symm

/-- A known instruction, whose branch leads to an instruction or to the end. -/
def Valid (readUint32 : UInt8 → UInt8 → UInt8 → UInt8 → UInt32) (bytes : List UInt8)
    (starts : List ℕ) (ip : ℕ) : Prop :=
  ∃ instruction kind, readAt readUint32 bytes ip = some instruction
    ∧ kindOf (instruction >>> 24) = some kind
    ∧ (kind = .branch → ¬isExitPopEnv instruction → ∃ target : ℕ,
      ip + jumpOffset instruction = target ∧ (target = bytes.length ∨ target ∈ starts))

theorem branchFits_iff (hlen : bytes.length < 2 ^ 32) (h : Splits readUint32 bytes 0 starts)
    (ip : ℕ) (instruction : UInt32) : branchFits readUint32 bytes ip instruction = some true
      ↔ (¬isExitPopEnv instruction → ∃ target : ℕ, ip + jumpOffset instruction = target
        ∧ (target = bytes.length ∨ target ∈ starts)) := by
  unfold branchFits isBoundary
  dsimp only
  split_ifs with hexit hout hend
  · exact iff_of_true rfl fun hnot => absurd hexit hnot
  · refine iff_of_false nofun fun hall => ?_
    obtain ⟨target, htarget, hlands⟩ := hall hexit
    rcases hlands with rfl | hmem
    · omega
    · have := h.starts_lt target hmem
      omega
  · exact iff_of_true rfl fun _ => ⟨bytes.length, by omega, .inl rfl⟩
  · obtain ⟨found, hfound, hall⟩ := boundaryLoop_spec readUint32 hlen
      (ip + jumpOffset instruction).toNat (bytes.length + 1) 0 (by omega) (Nat.zero_le _)
    rw [hfound, Option.some.injEq, hall starts h, forall_prop_of_true hexit]
    constructor
    · exact fun hmem => ⟨_, by omega, .inr hmem⟩
    · rintro ⟨target, htarget, rfl | hmem⟩
      · omega
      · rw [show (ip + jumpOffset instruction).toNat = target by omega]
        exact hmem

/-- The scan ends without a read past the code, and accepts what splits into valid instructions. -/
theorem scan_accepts_iff (readUint32 : UInt8 → UInt8 → UInt8 → UInt8 → UInt32) (bytes : List UInt8)
    (hlen : bytes.length < 2 ^ 32) (s : DemonBytecodeStats) :
    ∃ accepted s', scanCode readUint32 bytes s = some (accepted, s')
      ∧ (accepted = true ↔ ∃ starts, Splits readUint32 bytes 0 starts
        ∧ ∀ ip ∈ starts, Valid readUint32 bytes starts ip)
      ∧ (accepted = true → ∃ instructions operands, 4 * instructions + operands = bytes.length
        ∧ Counted s s' instructions operands) := by
  obtain ⟨accepted, s', hscan, hyes, hno⟩ := scanLoop_spec readUint32 hlen
    (bytes.length + 1) 0 s (by omega) (Nat.zero_le _)
  have hvalid : ∀ starts, Splits readUint32 bytes 0 starts →
      ∀ ip, Passes readUint32 bytes ip ↔ Valid readUint32 bytes starts ip :=
    fun starts h ip => exists_congr fun instruction => exists_congr fun kind =>
      and_congr_right fun _ => and_congr_right fun _ => imp_congr_right fun _ =>
        branchFits_iff hlen h ip instruction
  refine ⟨accepted, s', hscan, ⟨fun haccepted => ?_, fun ⟨starts, hsplits, hall⟩ => ?_⟩,
    fun haccepted => ?_⟩
  · obtain ⟨starts, -, hsplits, hall, -⟩ := hyes haccepted
    exact ⟨starts, hsplits, fun ip hip => (hvalid starts hsplits ip).1 (hall ip hip)⟩
  · by_contra hrefused
    obtain ⟨ip, hip, hnot⟩ := hno (Bool.not_eq_true _ ▸ hrefused) starts hsplits
    exact hnot ((hvalid starts hsplits ip).2 (hall ip hip))
  · obtain ⟨starts, operands, -, -, hsum, hcounted⟩ := hyes haccepted
    exact ⟨starts.length, operands, hsum.trans (Nat.sub_zero _), hcounted⟩

def word (b0 b1 b2 b3 : UInt8) : UInt32 :=
  b0.toUInt32 ||| b1.toUInt32 <<< 8 ||| b2.toUInt32 <<< 16 ||| b3.toUInt32 <<< 24

/-- A conversion, and a branch back to it. -/
theorem scan_accepts_branch :
    ∃ starts, Splits word [0, 0, 0, 0x07, 0xFF, 0xFF, 0x7F, 0xB6] 0 starts
      ∧ ∀ ip ∈ starts, Valid word [0, 0, 0, 0x07, 0xFF, 0xFF, 0x7F, 0xB6] starts ip := by
  obtain ⟨accepted, s', hscan, hiff, -⟩ :=
    scan_accepts_iff word [0, 0, 0, 0x07, 0xFF, 0xFF, 0x7F, 0xB6] (by decide) {}
  have haccepted : (scanCode word [0, 0, 0, 0x07, 0xFF, 0xFF, 0x7F, 0xB6] {}).map Prod.fst
      = some true := by decide +kernel
  rw [hscan] at haccepted
  exact hiff.1 (Option.some.inj haccepted)

end BytecodeScan

end DemonOS
