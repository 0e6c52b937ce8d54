import DemonOS.Bzip2

/-!
# Selectors and runs of a bzip2 block

A block is a sequence of symbols; between the others stand runs of the two run symbols, which count
copies of the byte at the front of the table. The count is kept in 32 bits, and nothing but the end
of the selectors bounds a run; a selector may name an entry of the table of groups that was never
set. With neither of these a block is what its symbols say (`decodeEntropy_exact_iff`).
-/

namespace DemonOS

namespace Bzip2

open MoveToFront (toFront decode)

def runSum (digits : List ℕ) : ℕ := (digits.zipIdx.map fun d => (d.1 + 1) * 2 ^ d.2).sum

def runsOf : List ℕ → List ℕ → List (List ℕ × ℕ)
  | _, [] => []
  | digits, sym :: symbols =>
    if sym = bzRunA ∨ sym = bzRunB then runsOf (digits ++ [sym]) symbols
    else (digits, sym) :: runsOf [] symbols

/-- What the symbols of a block stand for; the end of the block names no byte of the table. -/
def expandRuns : List UInt8 → List (List ℕ × ℕ) → List UInt8
  | _, [] => []
  | mtf, (digits, sym) :: rest => List.replicate (runSum digits) (mtf.headD 0)
      ++ (mtf[sym - 1]?.toList ++ expandRuns (toFront mtf (sym - 1)) rest)

theorem runSum_concat (digits : List ℕ) (d : ℕ) :
    runSum (digits ++ [d]) = runSum digits + (d + 1) * 2 ^ digits.length := by
  simp [runSum, List.zipIdx_append]

theorem le_runSum : ∀ {digits : List ℕ}, digits ≠ [] → 0 < runSum digits := by
  intro digits h
  obtain ⟨front, d, rfl⟩ := List.eq_nil_or_concat digits |>.resolve_left h
  rw [List.concat_eq_append, runSum_concat]
  have hpow : 0 < (d + 1) * 2 ^ front.length := Nat.mul_pos d.succ_pos (Nat.pow_pos (by decide))
  omega

theorem runSum_le_length : ∀ {runs : List (List ℕ × ℕ)} (mtf : List UInt8) {r : List ℕ × ℕ},
    r ∈ runs → runSum r.1 ≤ (expandRuns mtf runs).length
  | (digits, sym) :: rest, mtf, r, hr => by
    rw [expandRuns, List.length_append, List.length_append, List.length_replicate]
    rcases List.mem_cons.1 hr with rfl | hr
    · exact Nat.le_add_right _ _
    · have hle := runSum_le_length (toFront mtf (sym - 1)) hr
      omega

/-! ## A round of the loop -/

namespace SymbolState

variable {tables : ℕ → HuffTable} {maxBlockBytes eob sym : ℕ} {done : Bool}
  {s s' : SymbolState}

structure Counted (s : SymbolState) : Prop where
  symbols : s.symbols.length + s.groupPos = bzNGroupsSyms * s.used.length
  pos : s.groupPos < bzNGroupsSyms

structure ReadsSymbol (sym : ℕ) (s s' : SymbolState) : Prop where
  run : s'.run = s.run
  runBit : s'.runBit = s.runBit
  mtf : s'.mtf = s.mtf
  block : s'.block = s.block
  symbols : s'.symbols = s.symbols ++ [sym]
  selectors : s'.used ++ s'.selectors = s.used ++ s.selectors
  counted : s.Counted → s'.Counted

theorem readSymbol_reads (h : s.readSymbol tables = some (sym, s')) : ReadsSymbol sym s s' := by
  unfold readSymbol at h
  cases henter : s.enterGroup with
  | none =>
    rw [henter] at h
    cases h
  | some t =>
    rw [henter] at h
    obtain ⟨result, -, heq⟩ := Option.map_eq_some_iff.1 h
    obtain ⟨rfl, rfl⟩ := Prod.mk.inj heq
    unfold enterGroup at henter
    by_cases hpos : s.groupPos = 0
    · rw [if_pos hpos] at henter
      cases hselectors : s.selectors with
      | nil =>
        rw [hselectors] at henter
        cases henter
      | cons selector selectors =>
        rw [hselectors] at henter
        obtain rfl := Option.some.inj henter
        refine ⟨rfl, rfl, rfl, rfl, rfl, ?_, fun hs => ?_⟩
        · simp [hselectors]
        · have hsymbols := hs.symbols
          constructor
          · simp only [List.length_append, List.length_singleton, bzNGroupsSyms] at hsymbols ⊢
            omega
          · dsimp only
            decide
    · rw [if_neg hpos] at henter
      obtain rfl := Option.some.inj henter
      refine ⟨rfl, rfl, rfl, rfl, rfl, rfl, fun hs => ?_⟩
      obtain ⟨hsymbols, hlt⟩ := hs
      constructor
      · simp only [List.length_append, List.length_singleton]
        omega
      · dsimp only
        omega

theorem step_cases (h : s.step tables maxBlockBytes eob = some (done, s')) :
    ∃ sym t, ReadsSymbol sym s t
      ∧ ((sym = bzRunA ∨ sym = bzRunB) ∧ done = false ∧ s' = t.countRun sym
        ∨ ¬(sym = bzRunA ∨ sym = bzRunB) ∧ ∃ u, t.flushRun maxBlockBytes = some u
          ∧ (sym = eob ∧ done = true ∧ s' = u
            ∨ done = false ∧ u.emitByte maxBlockBytes (sym - 1) = some s')) := by
  unfold step at h
  cases hread : s.readSymbol tables with
  | none =>
    rw [hread] at h
    cases h
  | some result =>
    obtain ⟨sym, t⟩ := result
    refine ⟨sym, t, readSymbol_reads hread, ?_⟩
    rw [hread] at h
    dsimp only at h
    by_cases hrun : sym = bzRunA ∨ sym = bzRunB
    · rw [if_pos hrun] at h
      obtain ⟨rfl, rfl⟩ := Prod.mk.inj (Option.some.inj h)
      exact .inl ⟨hrun, rfl, rfl⟩
    · rw [if_neg hrun] at h
      refine .inr ⟨hrun, ?_⟩
      cases hflush : t.flushRun maxBlockBytes with
      | none =>
        rw [hflush] at h
        cases h
      | some u =>
        rw [hflush] at h
        refine ⟨u, rfl, ?_⟩
        split_ifs at h with heob
        · obtain ⟨rfl, rfl⟩ := Prod.mk.inj (Option.some.inj h)
          exact .inl ⟨heob, rfl, rfl⟩
        · obtain ⟨v, hemit, heq⟩ := Option.map_eq_some_iff.1 h
          obtain ⟨rfl, rfl⟩ := Prod.mk.inj heq
          exact .inr ⟨rfl, hemit⟩

theorem flushRun_some (h : s.flushRun maxBlockBytes = some s') :
    s'.block = s.block ++ List.replicate s.run (s.mtf.headD 0) ∧ s'.mtf = s.mtf
      ∧ s'.symbols = s.symbols ∧ s'.used = s.used ∧ s'.selectors = s.selectors
      ∧ s'.groupPos = s.groupPos ∧ s'.run = 0 ∧ (0 < s.run → s'.runBit = 1)
      ∧ (s.run = 0 → s'.runBit = s.runBit)
      ∧ (s.block.length ≤ maxBlockBytes → s'.block.length ≤ maxBlockBytes) := by
  unfold flushRun at h
  split_ifs at h with hrun hfull
  · obtain rfl := Option.some.inj h
    refine ⟨rfl, rfl, rfl, rfl, rfl, rfl, rfl, fun _ => rfl, fun h => by omega, fun _ => ?_⟩
    simp only [List.length_append, List.length_replicate]
    omega
  · obtain rfl := Option.some.inj h
    have hzero : s.run = 0 := by omega
    refine ⟨?_, rfl, rfl, rfl, rfl, rfl, hzero, fun h => absurd h hrun, fun _ => rfl, id⟩
    rw [hzero, List.replicate_zero, List.append_nil]

theorem emitByte_some {mtfIndex : ℕ} (h : s.emitByte maxBlockBytes mtfIndex = some s') :
    s'.block = s.block ++ s.mtf[mtfIndex]?.toList ∧ s'.mtf = toFront s.mtf mtfIndex
      ∧ s'.symbols = s.symbols ∧ s'.used = s.used ∧ s'.selectors = s.selectors
      ∧ s'.groupPos = s.groupPos ∧ s'.run = s.run ∧ s'.runBit = s.runBit
      ∧ s'.block.length ≤ maxBlockBytes := by
  unfold emitByte at h
  cases hvalue : s.mtf[mtfIndex]? with
  | none =>
    rw [hvalue] at h
    cases h
  | some value =>
    rw [hvalue] at h
    split_ifs at h with hfull
    obtain rfl := Option.some.inj h
    refine ⟨rfl, rfl, rfl, rfl, rfl, rfl, rfl, rfl, ?_⟩
    simp only [List.length_append, List.length_singleton]
    omega

end SymbolState

/-! ## The whole loop -/

section Loop

variable {tables : ℕ → HuffTable} {maxBlockBytes eob : ℕ} {final : SymbolState}

/-- What holds after the last round, and holds before a round if it does after it, held at the
start. -/
theorem symbolLoop_induction {motive : SymbolState → Prop}
    (hdone : ∀ s, s.step tables maxBlockBytes eob = some (true, final) → motive s)
    (hmore : ∀ s s', s.step tables maxBlockBytes eob = some (false, s') → motive s' → motive s)
    (s : SymbolState) (h : symbolLoop tables maxBlockBytes eob s = some final) : motive s := by
  rw [symbolLoop] at h
  split at h
  · cases h
  · obtain rfl := Option.some.inj h
    exact hdone s ‹_›
  · rename_i s' hstep
    exact hmore s s' hstep (symbolLoop_induction hdone hmore s' h)
termination_by s.budget
decreasing_by exact SymbolState.step_budget ‹_›

structure LoopKeeps (maxBlockBytes : ℕ) (s final : SymbolState) : Prop where
  selectors : final.used ++ final.selectors = s.used ++ s.selectors
  counted : s.Counted → final.Counted
  room : s.block.length ≤ maxBlockBytes → final.block.length ≤ maxBlockBytes

open SymbolState (step_cases flushRun_some emitByte_some) in
theorem step_keeps {s s' : SymbolState} {done : Bool}
    (h : s.step tables maxBlockBytes eob = some (done, s')) : LoopKeeps maxBlockBytes s s' := by
  obtain ⟨sym, t, hread, ⟨-, -, rfl⟩ | ⟨-, u, hflush, hlast⟩⟩ := step_cases h
  · refine ⟨hread.selectors, fun hs => ?_, fun hroom => ?_⟩
    · obtain ⟨hsymbols, hpos⟩ := hread.counted hs
      exact ⟨hsymbols, hpos⟩
    · unfold SymbolState.countRun
      dsimp only
      rw [hread.block]
      exact hroom
  · obtain ⟨-, -, hsymbols, hused, hselectors, hgroup, -, -, -, hroom⟩ := flushRun_some hflush
    rw [hread.block] at hroom
    have hcounted : s.Counted → u.Counted := fun hs => by
      obtain ⟨hcount, hpos⟩ := hread.counted hs
      exact ⟨by rw [hsymbols, hused, hgroup]; exact hcount, by rw [hgroup]; exact hpos⟩
    rcases hlast with ⟨-, -, rfl⟩ | ⟨-, hemit⟩
    · exact ⟨by rw [hused, hselectors, hread.selectors], hcounted, hroom⟩
    · obtain ⟨-, -, hsymbols', hused', hselectors', hgroup', -, -, hroom'⟩ := emitByte_some hemit
      refine ⟨?_, fun hs => ?_, fun _ => hroom'⟩
      · rw [hused', hselectors', hused, hselectors, hread.selectors]
      · obtain ⟨hcount, hpos⟩ := hcounted hs
        exact ⟨by rw [hsymbols', hused', hgroup']; exact hcount, by rw [hgroup']; exact hpos⟩

theorem symbolLoop_keeps {s : SymbolState}
    (h : symbolLoop tables maxBlockBytes eob s = some final) : LoopKeeps maxBlockBytes s final := by
  refine symbolLoop_induction (fun s hstep => step_keeps hstep) (fun s s' hstep hkeeps => ?_) s h
  have hfirst := step_keeps hstep
  exact ⟨hkeeps.selectors.trans hfirst.selectors, hkeeps.counted ∘ hfirst.counted,
    hkeeps.room ∘ hfirst.room⟩

structure Pending (digits : List ℕ) (s : SymbolState) : Prop where
  run : s.run = runSum digits % 2 ^ 32
  runBit : s.runBit = 2 ^ digits.length % 2 ^ 32

theorem Pending.countRun {digits : List ℕ} {s : SymbolState} (h : Pending digits s) (sym : ℕ) :
    Pending (digits ++ [sym]) (s.countRun sym) := by
  constructor
  · unfold SymbolState.countRun
    rw [h.run, h.runBit, runSum_concat, Nat.add_mod, Nat.mod_mod, Nat.mul_mod, Nat.mod_mod,
      ← Nat.mul_mod, ← Nat.add_mod]
  · unfold SymbolState.countRun
    rw [h.runBit, Nat.mod_mul_mod, List.length_append, List.length_singleton, ← pow_succ]

theorem Pending.flush {digits : List ℕ} {s s' : SymbolState} (h : Pending digits s)
    (hsmall : runSum digits < 2 ^ 32) (hflush : s.flushRun maxBlockBytes = some s') :
    Pending [] s' ∧ s'.block = s.block ++ List.replicate (runSum digits) (s.mtf.headD 0) := by
  obtain ⟨hblock, -, -, -, -, -, hrun, hfresh, hkept, -⟩ := SymbolState.flushRun_some hflush
  have hexact : s.run = runSum digits := by rw [h.run, Nat.mod_eq_of_lt hsmall]
  rw [hexact] at hblock hfresh hkept
  refine ⟨⟨hrun, ?_⟩, hblock⟩
  by_cases hnone : digits = []
  · subst hnone
    rw [hkept rfl, h.runBit]
  · rw [hfresh (le_runSum hnone)]
    decide

/-- What is left of the symbols stands for what is left of the block, if no run is too long. -/
def Expands (eob : ℕ) (final s : SymbolState) : Prop :=
  ∃ symbols, final.symbols = s.symbols ++ symbols ∧ ∀ digits, Pending digits s →
    s.mtf.length < eob → (∀ r ∈ runsOf digits symbols, runSum r.1 < 2 ^ 32) →
    final.block = s.block ++ expandRuns s.mtf (runsOf digits symbols)

open SymbolState (step_cases flushRun_some emitByte_some) in
theorem expands_done {s : SymbolState}
    (h : s.step tables maxBlockBytes eob = some (true, final)) : Expands eob final s := by
  obtain ⟨sym, t, hread, ⟨-, hnot, -⟩ | ⟨hsym, u, hflush, hlast⟩⟩ := step_cases h
  · cases hnot
  obtain ⟨rfl, -, rfl⟩ | ⟨hnot, -⟩ := hlast
  · refine ⟨[sym], ?_, fun digits hdigits hlarge hruns => ?_⟩
    · obtain ⟨-, -, hsymbols, -⟩ := flushRun_some hflush
      rw [hsymbols, hread.symbols]
    · rw [runsOf, if_neg hsym] at hruns ⊢
      have hpending : Pending digits t := ⟨hread.run ▸ hdigits.run, hread.runBit ▸ hdigits.runBit⟩
      have hblock := (hpending.flush (hruns _ List.mem_cons_self) hflush).2
      -- the end of the block is past the end of the table
      have hpast : s.mtf[sym - 1]? = none := List.getElem?_eq_none (by omega)
      rw [hblock, hread.block, hread.mtf, expandRuns, hpast, runsOf, expandRuns]
      simp
  · cases hnot

open SymbolState (step_cases flushRun_some emitByte_some) in
theorem expands_more {s s' : SymbolState}
    (h : s.step tables maxBlockBytes eob = some (false, s')) (hrest : Expands eob final s') :
    Expands eob final s := by
  obtain ⟨symbols, hsymbols, hexpands⟩ := hrest
  obtain ⟨sym, t, hread, ⟨hsym, -, rfl⟩ | ⟨hsym, u, hflush, hlast⟩⟩ := step_cases h
  · refine ⟨sym :: symbols, ?_, fun digits hdigits hlarge hruns => ?_⟩
    · rw [hsymbols, SymbolState.countRun]
      dsimp only
      rw [hread.symbols, List.append_assoc, List.singleton_append]
    · rw [runsOf, if_pos hsym] at hruns ⊢
      have hpending : Pending digits t := ⟨hread.run ▸ hdigits.run, hread.runBit ▸ hdigits.runBit⟩
      have hsame : (t.countRun sym).mtf = s.mtf := hread.mtf
      have hblock : (t.countRun sym).block = s.block := hread.block
      have hnext := hexpands _ (hpending.countRun sym) (by rw [hsame]; exact hlarge) hruns
      rw [hnext, hsame, hblock]
  · obtain ⟨-, hnot, -⟩ | ⟨-, hemit⟩ := hlast
    · cases hnot
    obtain ⟨hblock', hmtf', hsymbols', -, -, -, hrun', hrunBit', -⟩ := emitByte_some hemit
    obtain ⟨-, hmtf, hsame, -⟩ := flushRun_some hflush
    refine ⟨sym :: symbols, ?_, fun digits hdigits hlarge hruns => ?_⟩
    · rw [hsymbols, hsymbols', hsame, hread.symbols, List.append_assoc, List.singleton_append]
    · rw [runsOf, if_neg hsym] at hruns ⊢
      have hpending : Pending digits t := ⟨hread.run ▸ hdigits.run, hread.runBit ▸ hdigits.runBit⟩
      obtain ⟨hfresh, hblock⟩ := hpending.flush (hruns _ List.mem_cons_self) hflush
      have hmtf'' : s'.mtf = toFront s.mtf (sym - 1) := by rw [hmtf', hmtf, hread.mtf]
      have hnext := hexpands [] ⟨hrun'.trans hfresh.run, hrunBit'.trans hfresh.runBit⟩
        (by rw [hmtf'', MoveToFront.length_toFront]; exact hlarge)
        fun r hr => hruns r (List.mem_cons_of_mem _ hr)
      rw [hnext, hblock', hblock, hmtf'', hmtf, hread.block, hread.mtf, expandRuns]
      simp only [List.append_assoc]

theorem symbolLoop_expands {s : SymbolState}
    (h : symbolLoop tables maxBlockBytes eob s = some final) : Expands eob final s :=
  symbolLoop_induction (fun _ => expands_done) (fun _ _ => expands_more) s h

end Loop

/-! ## The block -/

theorem readTables_built {alphaSize : ℕ} : ∀ {groups : List ℕ} {tables built : ℕ → HuffTable}
    {br br' : BitReader}, readTables alphaSize groups tables br = some (built, br') →
      (∀ g ∉ groups, built g = tables g)
        ∧ ∀ g ∈ groups, ∃ old lengths, built g = buildHuffman old lengths
  | [], _, _, _, _, h => by
    obtain ⟨rfl, -⟩ := Prod.mk.inj (Option.some.inj h)
    exact ⟨fun _ _ => rfl, fun g hg => by cases hg⟩
  | first :: groups, tables, built, br, br', h => by
    rw [readTables] at h
    cases hlengths : readLengths alphaSize (br.brBits 5).1 (br.brBits 5).2 with
    | none =>
      rw [hlengths] at h
      cases h
    | some result =>
      obtain ⟨lengths, rest⟩ := result
      rw [hlengths] at h
      obtain ⟨hothers, hbuilt⟩ := readTables_built h
      refine ⟨fun g hg => ?_, fun g hg => ?_⟩
      · rw [List.mem_cons, not_or] at hg
        rw [hothers g hg.2, setAt, if_neg hg.1]
      · by_cases hlater : g ∈ groups
        · exact hbuilt g hlater
        · obtain rfl := (List.mem_cons.1 hg).resolve_right hlater
          exact ⟨_, _, by rw [hothers g hlater, setAt, if_pos rfl]⟩

def groupsEntered (symbols : ℕ) : ℕ := (symbols + (bzNGroupsSyms - 1)) / bzNGroupsSyms

def groupPlaces : List ℕ := List.range bzMaxGroups

/-- What is promised of a block whose symbols have been read: the tables that were used are tables
of this block, and every run counts for what it stands for. -/
structure EntropyExact (e : EntropyStage) (tables : ℕ → HuffTable) : Prop where
  selectors : ∀ g ∈ e.final.used, g < e.nGroups
  built : ∀ g ∈ e.final.used, ∃ old lengths, tables g = buildHuffman old lengths
  runs : e.final.block = expandRuns e.seqToUnseq (runsOf [] e.final.symbols)

/-- A block whose groups name entries of the table that were set, or ones that hold the number of a
group by accident, and that has no run longer than a counter. -/
structure EntropyInRange (stack : ℕ → ℕ) (e : EntropyStage) : Prop where
  selectors : ∀ p ∈ (decode groupPlaces e.selectorMtf).take
    (groupsEntered e.final.symbols.length), p < e.nGroups ∨ stack p < e.nGroups
  runs : ∀ r ∈ runsOf [] e.final.symbols, runSum r.1 < 2 ^ 32

/-- What a block that is read to the end of its symbols has gone through. -/
structure EntropyRun (stack : ℕ → ℕ) (maxBlockBytes : ℕ) (e : EntropyStage)
    (built : ℕ → HuffTable) : Prop where
  tables : ∀ g < e.nGroups, ∃ old lengths, built g = buildHuffman old lengths
  loop : ∃ br, symbolLoop built maxBlockBytes (e.seqToUnseq.length + 1)
    { br := br
      selectors := decode (mtfGroups e.nGroups stack) e.selectorMtf
      mtf := e.seqToUnseq } = some e.final

theorem decodeEntropy_run {stack : ℕ → ℕ} {tables built : ℕ → HuffTable} {br : BitReader}
    {maxBlockBytes : ℕ} {e : EntropyStage}
    (h : decodeEntropy stack tables br maxBlockBytes = some (e, built)) :
    EntropyRun stack maxBlockBytes e built := by
  unfold decodeEntropy at h
  simp only [Option.bind_eq_bind, Option.bind_eq_some_iff] at h
  obtain ⟨-, -, -, -, -, -, selectorMtf, -, result, htables, final, hloop, heq⟩ := h
  have hbuilt := (readTables_built htables).2
  generalize readSeqToUnseq _ _ _ = seqToUnseq at hloop hbuilt heq
  obtain ⟨rfl, rfl⟩ := Prod.mk.inj (Option.some.inj heq)
  exact ⟨fun g hg => hbuilt g (List.mem_range.2 hg), _, hloop⟩

theorem decode_mtfGroups (nGroups : ℕ) (stack : ℕ → ℕ) (js : List ℕ) :
    decode (mtfGroups nGroups stack) js
      = (decode groupPlaces js).map fun p => if p < nGroups then p else stack p :=
  MoveToFront.decode_map _ _ _

/-- A block is what its symbols say just where its selectors and runs are in range. -/
theorem decodeEntropy_exact_iff {stack : ℕ → ℕ} {tables built : ℕ → HuffTable} {br : BitReader}
    {maxBlockBytes : ℕ} {e : EntropyStage} (hmax : maxBlockBytes < 2 ^ 32)
    (h : decodeEntropy stack tables br maxBlockBytes = some (e, built)) :
    EntropyExact e built ↔ EntropyInRange stack e := by
  obtain ⟨htables, br', hloop⟩ := decodeEntropy_run h
  obtain ⟨hselectors, hcounted, hroom⟩ := symbolLoop_keeps hloop
  obtain ⟨symbols, hsymbols, hexpands⟩ := symbolLoop_expands hloop
  obtain rfl : e.final.symbols = symbols := hsymbols
  -- the selectors that were used are as many as the symbols have taken
  have hused : e.final.used = ((decode groupPlaces e.selectorMtf).take
      (groupsEntered e.final.symbols.length)).map
        fun p => if p < e.nGroups then p else stack p := by
    obtain ⟨hcount, hpos⟩ := hcounted ⟨rfl, by dsimp only; decide⟩
    have hlength : groupsEntered e.final.symbols.length = e.final.used.length := by
      unfold groupsEntered bzNGroupsSyms at *
      omega
    rw [hlength, List.map_take, ← decode_mtfGroups, ← List.nil_append (decode _ _), ← hselectors,
      List.take_left]
  have hplaces : (∀ g ∈ e.final.used, g < e.nGroups)
      ↔ ∀ p ∈ (decode groupPlaces e.selectorMtf).take (groupsEntered e.final.symbols.length),
        p < e.nGroups ∨ stack p < e.nGroups := by
    rw [hused, List.forall_mem_map]
    refine forall₂_congr fun p _ => ?_
    split_ifs <;> simp [*]
  constructor
  · intro hexact
    refine ⟨hplaces.1 hexact.selectors, fun r hr => ?_⟩
    have hlength := runSum_le_length e.seqToUnseq hr
    rw [← hexact.runs] at hlength
    exact lt_of_le_of_lt (hlength.trans (hroom (Nat.zero_le _))) hmax
  · intro hrange
    have hsmall := hplaces.2 hrange.selectors
    refine ⟨hsmall, fun g hg => htables g (hsmall g hg), ?_⟩
    rw [hexpands [] ⟨rfl, rfl⟩ (Nat.lt_succ_self _) hrange.runs]
    rfl

def staleStack : ℕ → ℕ := fun _ => 255

theorem first_bit : 0 < 8 := by decide

def shortBlock : BitReader :=
  { data := [0, 0, 0, 1, 0, 32, 0, 32, 0, 32, 160, 40, 96]
    bytePos := 0
    bitPos := 0
    bitPos_lt := first_bit }

/-- What is read of a block, where it is read to the end of its symbols. -/
def stageOf (br : BitReader) : Option (EntropyStage × (ℕ → HuffTable)) :=
  decodeEntropy staleStack (fun _ => zeroTable) br 900000

theorem decodeEntropy_exact_iff_short : ∃ e built, stageOf shortBlock = some (e, built)
    ∧ (EntropyExact e built ↔ EntropyInRange staleStack e) := by
  have hsome : (stageOf shortBlock).isSome := by decide +kernel
  obtain ⟨⟨e, built⟩, h⟩ := Option.isSome_iff_exists.1 hsome
  exact ⟨e, built, h, decodeEntropy_exact_iff (by decide) h⟩

def longRun : BitReader :=
  { data := [0, 0, 0, 1, 0, 32, 0, 32, 0, 32, 160, 40, 64, 0, 0, 0, 96]
    bytePos := 0
    bitPos := 0
    bitPos_lt := first_bit }

/-- The run wraps around and counts for a single byte. -/
theorem long_run_wraps : ∃ e built, stageOf longRun = some (e, built)
    ∧ ¬EntropyExact e built := by
  have hsome : (stageOf longRun).isSome := by decide +kernel
  obtain ⟨⟨e, built⟩, h⟩ := Option.isSome_iff_exists.1 hsome
  refine ⟨e, built, h, fun hexact => ?_⟩
  have hblock : (stageOf longRun).map (fun r => r.1.final.block.length) = some 1 := by
    decide +kernel
  have hruns : (stageOf longRun).map (fun r => (runsOf [] r.1.final.symbols).any
      fun run => 2 ^ 32 ≤ runSum run.1) = some true := by
    decide +kernel
  rw [h] at hblock hruns
  obtain ⟨run, hrun, hlarge⟩ := List.any_eq_true.1 (Option.some.inj hruns)
  have hle := runSum_le_length e.seqToUnseq hrun
  rw [← hexact.runs] at hle
  have hone : e.final.block.length = 1 := Option.some.inj hblock
  have hmany := of_decide_eq_true hlarge
  omega

end Bzip2

end DemonOS
