import DemonOS.Shell.Commands
import Mathlib.Data.List.TakeWhile

/-!
# The calculator's language

The grammar of the expressions, with the value of a phrase and the numbers its evaluation comes to
(`Phrase`): the operators associate to the left, division truncates, no divisor is zero. The parser
reads every phrase to its end and comes to its value (`Phrase.reads`, `shellCalcRun_derives`); the
numbers it comes to on the way, the sums within a literal among them, fit 64 bits exactly where the
phrase's do.
-/

namespace DemonOS.Shell

open ShellCalcParser

/-! ## The grammar -/

def Spaces (s : List UInt8) : Prop := ∀ c ∈ s, c = spaceChar

def literal (value : ℤ) (digits : List UInt8) : ℤ :=
  digits.foldl (fun value c => value * 10 + (c.toNat - 0x30 : ℕ)) value

inductive Level where
  | factor | term | expression

/-- The strings of a level, each with its value and the numbers of its evaluation: the literals and
the results of the operators, and of a remainder the quotient too. Spaces may stand before every
token. -/
inductive Phrase : Level → List UInt8 → ℤ → List ℤ → Prop
  | literal {sp digits : List UInt8} (hsp : Spaces sp) (hne : digits ≠ [])
      (hdigits : ∀ c ∈ digits, isDigit c = true) :
      Phrase .factor (sp ++ digits) (Shell.literal 0 digits) [Shell.literal 0 digits]
  | neg {sp s : List UInt8} {v : ℤ} {ns : List ℤ} (hsp : Spaces sp) (h : Phrase .factor s v ns) :
      Phrase .factor (sp ++ minusChar :: s) (-v) (ns ++ [-v])
  | pos {sp s : List UInt8} {v : ℤ} {ns : List ℤ} (hsp : Spaces sp) (h : Phrase .factor s v ns) :
      Phrase .factor (sp ++ plusChar :: s) v ns
  | paren {sp s sp' : List UInt8} {v : ℤ} {ns : List ℤ} (hsp : Spaces sp)
      (h : Phrase .expression s v ns) (hsp' : Spaces sp') :
      Phrase .factor (sp ++ openChar :: (s ++ (sp' ++ [closeChar]))) v ns
  | factor {s : List UInt8} {v : ℤ} {ns : List ℤ} (h : Phrase .factor s v ns) : Phrase .term s v ns
  | mul {s sp t : List UInt8} {v w : ℤ} {ns ms : List ℤ} (h : Phrase .term s v ns)
      (hsp : Spaces sp) (h' : Phrase .factor t w ms) :
      Phrase .term (s ++ (sp ++ timesChar :: t)) (v * w) (ns ++ ms ++ [v * w])
  | div {s sp t : List UInt8} {v w : ℤ} {ns ms : List ℤ} (h : Phrase .term s v ns)
      (hsp : Spaces sp) (h' : Phrase .factor t w ms) (hw : w ≠ 0) :
      Phrase .term (s ++ (sp ++ divideChar :: t)) (v.tdiv w) (ns ++ ms ++ [v.tdiv w])
  | mod {s sp t : List UInt8} {v w : ℤ} {ns ms : List ℤ} (h : Phrase .term s v ns)
      (hsp : Spaces sp) (h' : Phrase .factor t w ms) (hw : w ≠ 0) :
      Phrase .term (s ++ (sp ++ moduloChar :: t)) (v.tmod w) (ns ++ ms ++ [v.tdiv w, v.tmod w])
  | term {s : List UInt8} {v : ℤ} {ns : List ℤ} (h : Phrase .term s v ns) : Phrase .expression s v ns
  | add {s sp t : List UInt8} {v w : ℤ} {ns ms : List ℤ} (h : Phrase .expression s v ns)
      (hsp : Spaces sp) (h' : Phrase .term t w ms) :
      Phrase .expression (s ++ (sp ++ plusChar :: t)) (v + w) (ns ++ ms ++ [v + w])
  | sub {s sp t : List UInt8} {v w : ℤ} {ns ms : List ℤ} (h : Phrase .expression s v ns)
      (hsp : Spaces sp) (h' : Phrase .term t w ms) :
      Phrase .expression (s ++ (sp ++ minusChar :: t)) (v - w) (ns ++ ms ++ [v - w])

def Derives (argument : List UInt8) (v : ℤ) (ns : List ℤ) : Prop :=
  ∃ s sp, argument = s ++ sp ∧ Spaces sp ∧ Phrase .expression s v ns

def SameFit (ms ns : List ℤ) : Prop := (∀ n ∈ ms, Fits n) ↔ ∀ n ∈ ns, Fits n

theorem SameFit.append {ms ns ms' ns' : List ℤ} (h : SameFit ms ns) (h' : SameFit ms' ns') :
    SameFit (ms ++ ms') (ns ++ ns') := by
  unfold SameFit at *
  simp only [List.forall_mem_append]
  rw [h, h']

theorem SameFit.refl (ns : List ℤ) : SameFit ns ns := Iff.rfl

/-! ## Digits -/

def sums (value : ℤ) : List UInt8 → List ℤ
  | [] => []
  | c :: rest =>
    (value * 10 + (c.toNat - 0x30 : ℕ)) :: sums (value * 10 + (c.toNat - 0x30 : ℕ)) rest

theorem digits_eq : ∀ (ds rest : List UInt8) (value : ℤ) (numbers : List ℤ) (error : Bool),
    (∀ c ∈ ds, isDigit c = true) → rest.head?.any isDigit = false →
    digits value numbers error (ds ++ rest)
      = (literal value ds, { cursor := rest, error := error, numbers := numbers ++ sums value ds })
  | [], [], _, _, _, _, _ => by simp [digits, literal, sums]
  | [], c :: rest, _, _, _, _, h => by
    have hc : isDigit c = false := by simpa using h
    simp [digits, literal, sums, hc]
  | c :: ds, rest, value, numbers, error, hd, h => by
    rw [List.cons_append, digits, if_pos (hd c List.mem_cons_self)]
    dsimp only
    rw [digits_eq ds rest _ _ _ (fun d hd' => hd d (List.mem_cons_of_mem _ hd')) h]
    simp [literal, sums]

theorem sums_bounds : ∀ {ds : List UInt8} {value : ℤ}, 0 ≤ value →
    value ≤ literal value ds ∧ ∀ n ∈ sums value ds, 0 ≤ n ∧ n ≤ literal value ds
  | [], value, _ => ⟨le_rfl, fun n hn => by cases hn⟩
  | c :: ds, value, h => by
    have hstep : value ≤ value * 10 + (c.toNat - 0x30 : ℕ) := by omega
    obtain ⟨hle, hsums⟩ := @sums_bounds ds _ (h.trans hstep)
    have hlit : literal value (c :: ds) = literal (value * 10 + (c.toNat - 0x30 : ℕ)) ds := rfl
    rw [hlit]
    refine ⟨hstep.trans hle, fun n hn => ?_⟩
    rcases List.mem_cons.1 hn with rfl | hn
    · exact ⟨h.trans hstep, hle⟩
    · exact hsums n hn

theorem literal_mem_sums : ∀ {ds : List UInt8} (value : ℤ), ds ≠ [] →
    literal value ds ∈ sums value ds
  | [], _, h => absurd rfl h
  | [_], _, _ => List.mem_cons_self
  | _ :: d :: ds, _, _ =>
    List.mem_cons_of_mem _ (@literal_mem_sums (d :: ds) _ (List.cons_ne_nil d ds))

theorem sameFit_sums {ds : List UInt8} (h : ds ≠ []) : SameFit (sums 0 ds) [literal 0 ds] := by
  obtain ⟨-, hsums⟩ := @sums_bounds ds 0 le_rfl
  constructor
  · intro hf n hn
    rw [List.mem_singleton.1 hn]
    exact hf _ (literal_mem_sums 0 h)
  · intro hf n hn
    have hl := hf _ List.mem_cons_self
    obtain ⟨h0, hle⟩ := hsums n hn
    unfold Fits at *
    omega

/-! ## Spaces -/

theorem dropWhile_spaces {sp : List UInt8} (h : Spaces sp) (rest : List UInt8) :
    (sp ++ rest).dropWhile (· = spaceChar) = rest.dropWhile (· = spaceChar) :=
  List.dropWhile_append_of_pos fun c hc => by simpa using h c hc

theorem dropWhile_token {c : UInt8} (h : c ≠ spaceChar) (rest : List UInt8) :
    (c :: rest).dropWhile (· = spaceChar) = c :: rest :=
  List.dropWhile_cons_of_neg (by simpa using h)

theorem takeWhile_spaces (s : List UInt8) : Spaces (s.takeWhile (· = spaceChar)) := by
  intro c hc
  simpa using List.mem_takeWhile_imp hc

/-! ## The parser's steps -/

def reading (cursor : List UInt8) (numbers : List ℤ) : ShellCalcParser where
  cursor := cursor
  numbers := numbers

variable {fuel : ℕ} {sp rest : List UInt8} {numbers : List ℤ} {v : ℤ}

theorem skip_reading (h : Spaces sp) (rest : List UInt8) (numbers : List ℤ) :
    (reading (sp ++ rest) numbers).shellCalcSkipSpaces
      = reading (rest.dropWhile (· = spaceChar)) numbers := by
  unfold shellCalcSkipSpaces reading
  rw [dropWhile_spaces h]

theorem skip_token (h : Spaces sp) {c : UInt8} (hc : c ≠ spaceChar) (rest : List UInt8)
    (numbers : List ℤ) : (reading (sp ++ c :: rest) numbers).shellCalcSkipSpaces
      = reading (c :: rest) numbers := by
  rw [skip_reading h, dropWhile_token hc]

theorem at_reading {c d : UInt8} : (reading (c :: rest) numbers).At d ↔ c = d := by
  simp [At, reading]

theorem advance_reading (c : UInt8) : (reading (c :: rest) numbers).advance = reading rest numbers :=
  rfl

theorem note_reading (n : ℤ) : (reading rest numbers).note n = reading rest (numbers ++ [n]) := rfl

theorem shellCalcFactor_neg (h : Spaces sp) :
    shellCalcFactor (fuel + 1) (reading (sp ++ minusChar :: rest) numbers)
      = (shellCalcFactor fuel (reading rest numbers)).map fun r => (-r.1, r.2.note (-r.1)) := by
  rw [shellCalcFactor]
  rw [skip_token h (by decide), if_neg (by simp [reading]), if_pos (at_reading.2 rfl),
    advance_reading]

theorem shellCalcFactor_pos (h : Spaces sp) :
    shellCalcFactor (fuel + 1) (reading (sp ++ plusChar :: rest) numbers)
      = shellCalcFactor fuel (reading rest numbers) := by
  rw [shellCalcFactor]
  rw [skip_token h (by decide), if_neg (by simp [reading]), if_neg (by rw [at_reading]; decide),
    if_pos (at_reading.2 rfl), advance_reading]

theorem shellCalcFactor_open (h : Spaces sp) {sp' rest' : List UInt8} {numbers' : List ℤ}
    (hsp' : Spaces sp') (he : shellCalcExpression fuel (reading rest numbers)
      = some (v, reading (sp' ++ closeChar :: rest') numbers')) :
    shellCalcFactor (fuel + 1) (reading (sp ++ openChar :: rest) numbers)
      = some (v, reading rest' numbers') := by
  rw [shellCalcFactor]
  dsimp only
  rw [skip_token h (by decide), if_neg (by simp [reading]), if_neg (by rw [at_reading]; decide),
    if_neg (by rw [at_reading]; decide), if_pos (at_reading.2 rfl), advance_reading, he,
    Option.map_some, skip_token hsp' (by decide), if_pos (at_reading.2 rfl), advance_reading]

theorem shellCalcFactor_literal (h : Spaces sp) {ds : List UInt8} (hne : ds ≠ [])
    (hd : ∀ c ∈ ds, isDigit c = true) (hrest : rest.head?.any isDigit = false) :
    shellCalcFactor (fuel + 1) (reading (sp ++ ds ++ rest) numbers)
      = some (literal 0 ds, reading rest (numbers ++ sums 0 ds)) := by
  obtain ⟨c, ds', rfl⟩ := List.exists_cons_of_ne_nil hne
  have hc := hd c List.mem_cons_self
  have hother : ∀ d : UInt8, isDigit d = false → ¬ (reading (c :: ds' ++ rest) numbers).At d := by
    intro d hdd hat
    rw [List.cons_append, at_reading] at hat
    rw [hat, hdd] at hc
    cases hc
  have hspace : c ≠ spaceChar := fun he => by
    rw [he] at hc
    exact absurd hc (by decide)
  rw [shellCalcFactor]
  rw [List.append_assoc, List.cons_append, skip_token h hspace, ← List.cons_append,
    if_neg (by simp [reading]), if_neg (hother _ (by decide)), if_neg (hother _ (by decide)),
    if_neg (hother _ (by decide)), if_pos (by simp [reading, hc])]
  rw [show (reading (c :: ds' ++ rest) numbers).cursor = c :: ds' ++ rest from rfl,
    digits_eq _ _ _ _ _ hd hrest]
  rfl

/-- Neither a digit nor, after spaces, an operator of a term comes next. -/
structure Stops (rest : List UInt8) : Prop where
  digit : rest.head?.any isDigit = false
  operator : ∀ op ∈ [timesChar, divideChar, moduloChar],
    (rest.dropWhile (· = spaceChar)).head? ≠ some op

theorem stops_token (h : Spaces sp) {c : UInt8} (hs : c ≠ spaceChar) (hd : isDigit c = false)
    (hc : c ∉ [timesChar, divideChar, moduloChar]) (rest : List UInt8) :
    Stops (sp ++ c :: rest) := by
  refine ⟨?_, fun op hop he => hc ?_⟩
  · rcases sp with _ | ⟨d, sp⟩
    · simp [hd]
    · rw [h d List.mem_cons_self]
      simp [isDigit, spaceChar]
  · rw [dropWhile_spaces h, dropWhile_token hs, List.head?_cons, Option.some.injEq] at he
    rwa [he]

theorem stops_spaces (h : Spaces sp) : Stops sp := by
  have hd := dropWhile_spaces h []
  rw [List.append_nil] at hd
  refine ⟨?_, fun op _ => by rw [hd]; simp⟩
  rcases sp with _ | ⟨d, sp⟩
  · rfl
  · rw [h d List.mem_cons_self]
    simp [isDigit, spaceChar]

theorem Stops.not_at (h : Stops rest) {op : UInt8}
    (hop : op ∈ [timesChar, divideChar, moduloChar]) :
    ¬ (reading (rest.dropWhile (· = spaceChar)) numbers).At op :=
  h.operator op hop

theorem skip_rest (rest : List UInt8) (numbers : List ℤ) :
    (reading rest numbers).shellCalcSkipSpaces
      = reading (rest.dropWhile (· = spaceChar)) numbers := rfl

theorem shellCalcTermLoop_stops (h : Stops rest) :
    shellCalcTermLoop (fuel + 1) v (reading rest numbers)
      = some (v, reading (rest.dropWhile (· = spaceChar)) numbers) := by
  rw [shellCalcTermLoop]
  rw [skip_rest, if_neg (h.not_at (by simp)), if_neg (h.not_at (by simp)),
    if_neg (h.not_at (by simp))]

theorem shellCalcTermLoop_mul (h : Spaces sp) :
    shellCalcTermLoop (fuel + 1) v (reading (sp ++ timesChar :: rest) numbers)
      = (shellCalcFactor fuel (reading rest numbers)).bind fun r =>
          shellCalcTermLoop fuel (v * r.1) (r.2.note (v * r.1)) := by
  rw [shellCalcTermLoop]
  rw [skip_token h (by decide), if_pos (at_reading.2 rfl), advance_reading]

theorem shellCalcTermLoop_div (h : Spaces sp) :
    shellCalcTermLoop (fuel + 1) v (reading (sp ++ divideChar :: rest) numbers)
      = (shellCalcFactor fuel (reading rest numbers)).bind fun r =>
          if r.1 = 0 then some (0, r.2.fail)
          else shellCalcTermLoop fuel (v.tdiv r.1) (r.2.note (v.tdiv r.1)) := by
  rw [shellCalcTermLoop]
  rw [skip_token h (by decide), if_neg (by rw [at_reading]; decide), if_pos (at_reading.2 rfl),
    advance_reading]

theorem shellCalcTermLoop_mod (h : Spaces sp) :
    shellCalcTermLoop (fuel + 1) v (reading (sp ++ moduloChar :: rest) numbers)
      = (shellCalcFactor fuel (reading rest numbers)).bind fun r =>
          if r.1 = 0 then some (0, r.2.fail)
          else shellCalcTermLoop fuel (v.tmod r.1)
            ((r.2.note (v.tdiv r.1)).note (v.tmod r.1)) := by
  rw [shellCalcTermLoop]
  rw [skip_token h (by decide), if_neg (by rw [at_reading]; decide),
    if_neg (by rw [at_reading]; decide), if_pos (at_reading.2 rfl), advance_reading]

theorem shellCalcExpressionLoop_add :
    shellCalcExpressionLoop (fuel + 1) v (reading (plusChar :: rest) numbers)
      = (shellCalcTerm fuel (reading rest numbers)).bind fun r =>
          shellCalcExpressionLoop fuel (v + r.1) (r.2.note (v + r.1)) := by
  rw [shellCalcExpressionLoop]
  rw [skip_rest, dropWhile_token (by decide), if_pos (at_reading.2 rfl), advance_reading]

theorem shellCalcExpressionLoop_sub :
    shellCalcExpressionLoop (fuel + 1) v (reading (minusChar :: rest) numbers)
      = (shellCalcTerm fuel (reading rest numbers)).bind fun r =>
          shellCalcExpressionLoop fuel (v - r.1) (r.2.note (v - r.1)) := by
  rw [shellCalcExpressionLoop]
  rw [skip_rest, dropWhile_token (by decide), if_neg (by rw [at_reading]; decide), if_pos (at_reading.2 rfl),
    advance_reading]

theorem shellCalcExpressionLoop_stops
    (h : ∀ op ∈ [plusChar, minusChar], (rest.dropWhile (· = spaceChar)).head? ≠ some op) :
    shellCalcExpressionLoop (fuel + 1) v (reading rest numbers)
      = some (v, reading (rest.dropWhile (· = spaceChar)) numbers) := by
  have hno : ∀ op ∈ [plusChar, minusChar],
      ¬ (reading (rest.dropWhile (· = spaceChar)) numbers).At op := h
  rw [shellCalcExpressionLoop]
  rw [skip_rest, if_neg (hno _ (by simp)), if_neg (hno _ (by simp))]

/-! ## The parser reads every phrase -/

def Reads : Level → List UInt8 → ℤ → List ℤ → Prop
  | .factor, s, v, ns => ∀ (rest : List UInt8) (numbers : List ℤ) (fuel : ℕ),
      rest.head?.any isDigit = false → 4 * (s ++ rest).length + 1 ≤ fuel →
      ∃ ms, SameFit ms ns ∧ shellCalcFactor fuel (reading (s ++ rest) numbers)
        = some (v, reading rest (numbers ++ ms))
  | .term, s, v, ns => ∀ (rest : List UInt8) (numbers : List ℤ) (fuel : ℕ),
      rest.head?.any isDigit = false → 4 * (s ++ rest).length + 3 ≤ fuel →
      ∃ ms fuel', SameFit ms ns ∧ 4 * rest.length + 2 ≤ fuel' ∧
        shellCalcTerm fuel (reading (s ++ rest) numbers)
          = shellCalcTermLoop fuel' v (reading rest (numbers ++ ms))
  | .expression, s, v, ns => ∀ (rest : List UInt8) (numbers : List ℤ) (fuel : ℕ),
      Stops rest → 4 * (s ++ rest).length + 4 ≤ fuel →
      ∃ ms fuel', SameFit ms ns ∧ 4 * rest.length + 3 ≤ fuel' ∧
        shellCalcExpression fuel (reading (s ++ rest) numbers)
          = shellCalcExpressionLoop fuel' v
            (reading (rest.dropWhile (· = spaceChar)) (numbers ++ ms))

variable {s t sp' : List UInt8} {w : ℤ} {ns ms : List ℤ}

theorem reads_literal {ds : List UInt8} (hsp : Spaces sp) (hne : ds ≠ [])
    (hd : ∀ c ∈ ds, isDigit c = true) : Reads .factor (sp ++ ds) (literal 0 ds) [literal 0 ds] := by
  intro rest numbers fuel hrest hfuel
  obtain ⟨fuel, rfl⟩ : ∃ f, fuel = f + 1 := ⟨fuel - 1, by omega⟩
  exact ⟨sums 0 ds, sameFit_sums hne, shellCalcFactor_literal hsp hne hd hrest⟩

theorem reads_neg (hsp : Spaces sp) (h : Reads .factor s v ns) :
    Reads .factor (sp ++ minusChar :: s) (-v) (ns ++ [-v]) := by
  intro rest numbers fuel hrest hfuel
  simp only [List.length_append, List.length_cons] at hfuel
  obtain ⟨fuel, rfl⟩ : ∃ f, fuel = f + 1 := ⟨fuel - 1, by omega⟩
  obtain ⟨ms, hfit, hrun⟩ := h rest numbers fuel hrest (by rw [List.length_append]; omega)
  refine ⟨ms ++ [-v], hfit.append (.refl _), ?_⟩
  rw [List.append_assoc, List.cons_append, shellCalcFactor_neg hsp, hrun, Option.map_some,
    note_reading, List.append_assoc]

theorem reads_pos (hsp : Spaces sp) (h : Reads .factor s v ns) :
    Reads .factor (sp ++ plusChar :: s) v ns := by
  intro rest numbers fuel hrest hfuel
  simp only [List.length_append, List.length_cons] at hfuel
  obtain ⟨fuel, rfl⟩ : ∃ f, fuel = f + 1 := ⟨fuel - 1, by omega⟩
  obtain ⟨ms, hfit, hrun⟩ := h rest numbers fuel hrest (by rw [List.length_append]; omega)
  refine ⟨ms, hfit, ?_⟩
  rw [List.append_assoc, List.cons_append, shellCalcFactor_pos hsp, hrun]

theorem reads_paren (hsp : Spaces sp) (h : Reads .expression s v ns) (hsp' : Spaces sp') :
    Reads .factor (sp ++ openChar :: (s ++ (sp' ++ [closeChar]))) v ns := by
  intro rest numbers fuel _ hfuel
  simp only [List.length_append, List.length_cons, List.length_nil] at hfuel
  obtain ⟨fuel, rfl⟩ : ∃ f, fuel = f + 1 := ⟨fuel - 1, by omega⟩
  have hstops : Stops (sp' ++ closeChar :: rest) :=
    stops_token hsp' (by decide) (by decide) (by decide) rest
  obtain ⟨ms, fuel', hfit, hfuel', hrun⟩ := h (sp' ++ closeChar :: rest) numbers fuel hstops (by
    simp only [List.length_append, List.length_cons]; omega)
  obtain ⟨fuel', rfl⟩ : ∃ f, fuel' = f + 1 := ⟨fuel' - 1, by omega⟩
  rw [dropWhile_spaces hsp', dropWhile_token (by decide), shellCalcExpressionLoop_stops (by
    rw [dropWhile_token (by decide), List.head?_cons]
    simp [plusChar, minusChar, closeChar]), dropWhile_token (by decide)] at hrun
  refine ⟨ms, hfit, ?_⟩
  have htext : sp ++ openChar :: (s ++ (sp' ++ [closeChar])) ++ rest
      = sp ++ openChar :: (s ++ (sp' ++ closeChar :: rest)) := by simp
  rw [htext]
  exact shellCalcFactor_open hsp (show Spaces [] from fun _ hc => by cases hc) hrun

theorem reads_factor (h : Reads .factor s v ns) : Reads .term s v ns := by
  intro rest numbers fuel hrest hfuel
  obtain ⟨fuel, rfl⟩ : ∃ f, fuel = f + 1 := ⟨fuel - 1, by omega⟩
  obtain ⟨ms, hfit, hrun⟩ := h rest numbers fuel hrest (by omega)
  refine ⟨ms, fuel, hfit, ?_, ?_⟩
  · rw [List.length_append] at hfuel
    omega
  · rw [shellCalcTerm, hrun, Option.bind_some]

theorem token_no_digit (h : Spaces sp) {c : UInt8} (hd : isDigit c = false) (rest : List UInt8) :
    (sp ++ c :: rest).head?.any isDigit = false := by
  rcases sp with _ | ⟨d, sp⟩
  · simp [hd]
  · rw [h d List.mem_cons_self]
    simp [isDigit, spaceChar]

/-- A phrase before an operator, the operand after it and the rest: where the loop of the term
stands at the operator, and what it reads there. -/
theorem reads_operand {op : UInt8} (hop : isDigit op = false) (h : Reads .term s v ns)
    (hsp : Spaces sp) (h' : Reads .factor t w ms) (rest : List UInt8) (numbers : List ℤ)
    (hrest : rest.head?.any isDigit = false)
    (hfuel : 4 * (s ++ (sp ++ op :: t) ++ rest).length + 3 ≤ fuel) :
    ∃ ns' ms' fuel', SameFit ns' ns ∧ SameFit ms' ms ∧ 4 * rest.length + 2 ≤ fuel' ∧
      shellCalcTerm fuel (reading (s ++ (sp ++ op :: t) ++ rest) numbers)
        = shellCalcTermLoop (fuel' + 1) v
          (reading (sp ++ op :: (t ++ rest)) (numbers ++ ns')) ∧
      shellCalcFactor fuel' (reading (t ++ rest) (numbers ++ ns'))
        = some (w, reading rest (numbers ++ ns' ++ ms')) := by
  have htext : s ++ (sp ++ op :: t) ++ rest = s ++ (sp ++ op :: (t ++ rest)) := by simp
  rw [htext] at hfuel ⊢
  obtain ⟨ns', fuel', hns, hfuel', hrun⟩ :=
    h (sp ++ op :: (t ++ rest)) numbers fuel (token_no_digit hsp hop _) hfuel
  simp only [List.length_append, List.length_cons] at hfuel'
  obtain ⟨fuel', rfl⟩ : ∃ f, fuel' = f + 1 := ⟨fuel' - 1, by omega⟩
  obtain ⟨ms', hms, hrun'⟩ := h' rest (numbers ++ ns') fuel' hrest (by
    rw [List.length_append]; omega)
  exact ⟨ns', ms', fuel', hns, hms, by omega, hrun, hrun'⟩

theorem reads_mul (h : Reads .term s v ns) (hsp : Spaces sp) (h' : Reads .factor t w ms) :
    Reads .term (s ++ (sp ++ timesChar :: t)) (v * w) (ns ++ ms ++ [v * w]) := by
  intro rest numbers fuel hrest hfuel
  obtain ⟨ns', ms', fuel', hns, hms, hfuel', hrun, hrun'⟩ :=
    reads_operand (by decide) h hsp h' rest numbers hrest hfuel
  refine ⟨ns' ++ ms' ++ [v * w], fuel', (hns.append hms).append (.refl _), hfuel', ?_⟩
  rw [hrun, shellCalcTermLoop_mul hsp, hrun', Option.bind_some, note_reading]
  simp only [List.append_assoc]

theorem reads_div (h : Reads .term s v ns) (hsp : Spaces sp) (h' : Reads .factor t w ms)
    (hw : w ≠ 0) :
    Reads .term (s ++ (sp ++ divideChar :: t)) (v.tdiv w) (ns ++ ms ++ [v.tdiv w]) := by
  intro rest numbers fuel hrest hfuel
  obtain ⟨ns', ms', fuel', hns, hms, hfuel', hrun, hrun'⟩ :=
    reads_operand (by decide) h hsp h' rest numbers hrest hfuel
  refine ⟨ns' ++ ms' ++ [v.tdiv w], fuel', (hns.append hms).append (.refl _), hfuel', ?_⟩
  rw [hrun, shellCalcTermLoop_div hsp, hrun', Option.bind_some, if_neg hw, note_reading]
  simp only [List.append_assoc]

theorem reads_mod (h : Reads .term s v ns) (hsp : Spaces sp) (h' : Reads .factor t w ms)
    (hw : w ≠ 0) : Reads .term (s ++ (sp ++ moduloChar :: t)) (v.tmod w)
      (ns ++ ms ++ [v.tdiv w, v.tmod w]) := by
  intro rest numbers fuel hrest hfuel
  obtain ⟨ns', ms', fuel', hns, hms, hfuel', hrun, hrun'⟩ :=
    reads_operand (by decide) h hsp h' rest numbers hrest hfuel
  refine ⟨ns' ++ ms' ++ [v.tdiv w, v.tmod w], fuel', (hns.append hms).append (.refl _), hfuel', ?_⟩
  rw [hrun, shellCalcTermLoop_mod hsp, hrun', Option.bind_some, if_neg hw, note_reading,
    note_reading]
  simp only [List.append_assoc, List.cons_append, List.nil_append]

theorem Reads.term_stops (h : Reads .term s v ns) {rest : List UInt8} (hrest : Stops rest)
    (numbers : List ℤ) (hfuel : 4 * (s ++ rest).length + 3 ≤ fuel) :
    ∃ ms, SameFit ms ns ∧ shellCalcTerm fuel (reading (s ++ rest) numbers)
      = some (v, reading (rest.dropWhile (· = spaceChar)) (numbers ++ ms)) := by
  obtain ⟨ms, fuel', hfit, hfuel', hrun⟩ := h rest numbers fuel hrest.digit hfuel
  obtain ⟨fuel', rfl⟩ : ∃ f, fuel' = f + 1 := ⟨fuel' - 1, by omega⟩
  exact ⟨ms, hfit, by rw [hrun, shellCalcTermLoop_stops hrest]⟩

theorem reads_term (h : Reads .term s v ns) : Reads .expression s v ns := by
  intro rest numbers fuel hrest hfuel
  obtain ⟨fuel, rfl⟩ : ∃ f, fuel = f + 1 := ⟨fuel - 1, by omega⟩
  obtain ⟨ms, hfit, hrun⟩ := h.term_stops hrest numbers
    (show 4 * (s ++ rest).length + 3 ≤ fuel by omega)
  refine ⟨ms, fuel, hfit, ?_, ?_⟩
  · rw [List.length_append] at hfuel
    omega
  · rw [shellCalcExpression, hrun, Option.bind_some]

theorem reads_summand {op : UInt8} (hspace : op ≠ spaceChar) (hop : isDigit op = false)
    (hterm : op ∉ [timesChar, divideChar, moduloChar]) (h : Reads .expression s v ns)
    (hsp : Spaces sp) (h' : Reads .term t w ms) (rest : List UInt8) (numbers : List ℤ)
    (hrest : Stops rest) (hfuel : 4 * (s ++ (sp ++ op :: t) ++ rest).length + 4 ≤ fuel) :
    ∃ ns' ms' fuel', SameFit ns' ns ∧ SameFit ms' ms ∧ 4 * rest.length + 3 ≤ fuel' ∧
      shellCalcExpression fuel (reading (s ++ (sp ++ op :: t) ++ rest) numbers)
        = shellCalcExpressionLoop (fuel' + 1) v
          (reading (op :: (t ++ rest)) (numbers ++ ns')) ∧
      shellCalcTerm fuel' (reading (t ++ rest) (numbers ++ ns'))
        = some (w, reading (rest.dropWhile (· = spaceChar)) (numbers ++ ns' ++ ms')) := by
  have htext : s ++ (sp ++ op :: t) ++ rest = s ++ (sp ++ op :: (t ++ rest)) := by simp
  rw [htext] at hfuel ⊢
  obtain ⟨ns', fuel', hns, hfuel', hrun⟩ :=
    h (sp ++ op :: (t ++ rest)) numbers fuel (stops_token hsp hspace hop hterm _) hfuel
  simp only [List.length_append, List.length_cons] at hfuel'
  obtain ⟨fuel', rfl⟩ : ∃ f, fuel' = f + 1 := ⟨fuel' - 1, by omega⟩
  obtain ⟨ms', hms, hrun'⟩ := h'.term_stops hrest (numbers ++ ns')
    (show 4 * (t ++ rest).length + 3 ≤ fuel' by rw [List.length_append]; omega)
  rw [dropWhile_spaces hsp, dropWhile_token hspace] at hrun
  exact ⟨ns', ms', fuel', hns, hms, by omega, hrun, hrun'⟩

theorem reads_add (h : Reads .expression s v ns) (hsp : Spaces sp) (h' : Reads .term t w ms) :
    Reads .expression (s ++ (sp ++ plusChar :: t)) (v + w) (ns ++ ms ++ [v + w]) := by
  intro rest numbers fuel hrest hfuel
  obtain ⟨ns', ms', fuel', hns, hms, hfuel', hrun, hrun'⟩ :=
    reads_summand (by decide) (by decide) (by decide) h hsp h' rest numbers hrest hfuel
  refine ⟨ns' ++ ms' ++ [v + w], fuel', (hns.append hms).append (.refl _), hfuel', ?_⟩
  rw [hrun, shellCalcExpressionLoop_add, hrun', Option.bind_some, note_reading]
  simp only [List.append_assoc]

theorem reads_sub (h : Reads .expression s v ns) (hsp : Spaces sp) (h' : Reads .term t w ms) :
    Reads .expression (s ++ (sp ++ minusChar :: t)) (v - w) (ns ++ ms ++ [v - w]) := by
  intro rest numbers fuel hrest hfuel
  obtain ⟨ns', ms', fuel', hns, hms, hfuel', hrun, hrun'⟩ :=
    reads_summand (by decide) (by decide) (by decide) h hsp h' rest numbers hrest hfuel
  refine ⟨ns' ++ ms' ++ [v - w], fuel', (hns.append hms).append (.refl _), hfuel', ?_⟩
  rw [hrun, shellCalcExpressionLoop_sub, hrun', Option.bind_some, note_reading]
  simp only [List.append_assoc]

/-- Induction on the derivation. -/
theorem Phrase.reads {l : Level} (h : Phrase l s v ns) : Reads l s v ns := by
  induction h with
  | literal hsp hne hd => exact reads_literal hsp hne hd
  | neg hsp _ ih => exact reads_neg hsp ih
  | pos hsp _ ih => exact reads_pos hsp ih
  | paren hsp _ hsp' ih => exact reads_paren hsp ih hsp'
  | factor _ ih => exact reads_factor ih
  | mul _ hsp _ ih ih' => exact reads_mul ih hsp ih'
  | div _ hsp _ hw ih ih' => exact reads_div ih hsp ih' hw
  | mod _ hsp _ hw ih ih' => exact reads_mod ih hsp ih' hw
  | term _ ih => exact reads_term ih
  | add _ hsp _ ih ih' => exact reads_add ih hsp ih'
  | sub _ hsp _ ih ih' => exact reads_sub ih hsp ih'

theorem shellCalcRun_derives {argument : List UInt8} (h : Derives argument v ns) :
    ∃ ms, SameFit ms ns ∧ shellCalcRun argument = some (v, reading [] ms) := by
  obtain ⟨s, sp, rfl, hsp, h⟩ := h
  obtain ⟨ms, fuel', hfit, hfuel', hrun⟩ :=
    h.reads sp [] (4 * (s ++ sp).length + 4) (stops_spaces hsp) le_rfl
  obtain ⟨fuel', rfl⟩ : ∃ f, fuel' = f + 1 := ⟨fuel' - 1, by omega⟩
  have hend : sp.dropWhile (· = spaceChar) = [] := by
    have hd := dropWhile_spaces hsp []
    rwa [List.append_nil] at hd
  rw [hend, shellCalcExpressionLoop_stops (by simp)] at hrun
  refine ⟨ms, hfit, ?_⟩
  unfold shellCalcRun
  rw [show ({ cursor := s ++ sp } : ShellCalcParser) = reading (s ++ sp) [] from rfl, hrun,
    Option.map_some]
  rfl

end DemonOS.Shell
