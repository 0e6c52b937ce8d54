import DemonOS.Proofs.Shell.Calculator

/-!
# The calculator on every argument

The evaluation comes to an end on every argument (`total`), and where it ends without an error and
at the end of the text, the text is a phrase (`sound`). With `Phrase.reads` this settles what the
command puts out (`shellCmdCalc_eq`).
-/

namespace DemonOS.Shell

open ShellCalcParser

variable {fuel : ℕ} {p p' : ShellCalcParser} {v v' : ℤ} {c : UInt8}

/-! ## The evaluation ends -/

theorem skip_length (p : ShellCalcParser) :
    p.shellCalcSkipSpaces.cursor.length ≤ p.cursor.length :=
  (List.dropWhile_suffix _).length_le

theorem At.cursor_eq (h : p.At c) : p.cursor = c :: p.advance.cursor :=
  (List.head?_eq_some_iff.1 h).elim fun rest hrest => by rw [advance, hrest, List.tail_cons]

theorem At.length (h : p.At c) : p.cursor.length = p.advance.cursor.length + 1 := by
  rw [At.cursor_eq h, List.length_cons]

theorem digits_length : ∀ (cs : List UInt8) (value : ℤ) (numbers : List ℤ) (error : Bool),
    (digits value numbers error cs).2.cursor.length ≤ cs.length
  | [], _, _, _ => le_rfl
  | c :: rest, value, numbers, error => by
    unfold digits
    split_ifs
    · exact (digits_length rest _ _ _).trans (Nat.le_succ _)
    · exact le_rfl

def Ends (p : ShellCalcParser) (r : Option (ℤ × ShellCalcParser)) : Prop :=
  ∃ v p', r = some (v, p') ∧ p'.cursor.length ≤ p.cursor.length

theorem ends_some (h : p'.cursor.length ≤ p.cursor.length) : Ends p (some (v, p')) :=
  ⟨v, p', rfl, h⟩

/-- The depth that is enough for the text left. -/
structure Total (fuel : ℕ) : Prop where
  factor : ∀ p, 4 * p.cursor.length + 1 ≤ fuel → Ends p (shellCalcFactor fuel p)
  termLoop : ∀ v p, 4 * p.cursor.length + 2 ≤ fuel → Ends p (shellCalcTermLoop fuel v p)
  term : ∀ p, 4 * p.cursor.length + 3 ≤ fuel → Ends p (shellCalcTerm fuel p)
  expressionLoop : ∀ v p, 4 * p.cursor.length + 3 ≤ fuel →
    Ends p (shellCalcExpressionLoop fuel v p)
  expression : ∀ p, 4 * p.cursor.length + 4 ≤ fuel → Ends p (shellCalcExpression fuel p)

theorem Total.factor_succ (h : Total fuel) (p : ShellCalcParser)
    (hp : 4 * p.cursor.length + 1 ≤ fuel + 1) : Ends p (shellCalcFactor (fuel + 1) p) := by
  have hskip := skip_length p
  rw [shellCalcFactor]
  generalize p.shellCalcSkipSpaces = q at hskip
  split_ifs with herror hminus hplus hopen hdigit
  · exact ends_some hskip
  · have hlen := At.length hminus
    obtain ⟨v, p', hr, hp'⟩ := h.factor q.advance (by omega)
    rw [hr]
    exact ends_some (show p'.cursor.length ≤ _ by omega)
  · have hlen := At.length hplus
    obtain ⟨v, p', hr, hp'⟩ := h.factor q.advance (by omega)
    rw [hr]
    exact ends_some (by omega)
  · have hlen := At.length hopen
    obtain ⟨v, p', hr, hp'⟩ := h.expression q.advance (by omega)
    rw [hr, Option.map_some]
    have hskip' := skip_length p'
    dsimp only
    split_ifs with hclose
    · have hlen' := At.length hclose
      exact ends_some (by omega)
    · exact ends_some (show p'.shellCalcSkipSpaces.cursor.length ≤ _ by omega)
  · exact ends_some ((digits_length _ _ _ _).trans hskip)
  · exact ends_some hskip

theorem Total.termLoop_succ (h : Total fuel) (v : ℤ) (p : ShellCalcParser)
    (hp : 4 * p.cursor.length + 2 ≤ fuel + 1) : Ends p (shellCalcTermLoop (fuel + 1) v p) := by
  have hskip := skip_length p
  rw [shellCalcTermLoop]
  dsimp only
  generalize p.shellCalcSkipSpaces = q at hskip
  have hstep : ∀ {op : UInt8}, q.At op → ∀ f : ℤ × ShellCalcParser → Option (ℤ × ShellCalcParser),
      (∀ w p', 4 * p'.cursor.length + 2 ≤ fuel → Ends p' (f (w, p'))) →
      Ends p ((shellCalcFactor fuel q.advance).bind f) := by
    intro op hop f hf
    have hlen := At.length hop
    obtain ⟨w, p', hr, hp'⟩ := h.factor q.advance (by omega)
    obtain ⟨v', p'', hr', hp''⟩ := hf w p' (by omega)
    rw [hr, Option.bind_some, hr']
    exact ends_some (by omega)
  split_ifs with hmul hdiv hmod
  · exact hstep hmul _ fun w p' hp' => h.termLoop _ (p'.note (v * w)) hp'
  · refine hstep hdiv _ fun w p' hp' => ?_
    split_ifs
    · exact ends_some (show p'.cursor.length ≤ _ from le_rfl)
    · exact h.termLoop _ (p'.note (v.tdiv w)) hp'
  · refine hstep hmod _ fun w p' hp' => ?_
    split_ifs
    · exact ends_some (show p'.cursor.length ≤ _ from le_rfl)
    · exact h.termLoop _ ((p'.note (v.tdiv w)).note (v.tmod w)) hp'
  · exact ends_some hskip

theorem Total.term_succ (h : Total fuel) (p : ShellCalcParser)
    (hp : 4 * p.cursor.length + 3 ≤ fuel + 1) : Ends p (shellCalcTerm (fuel + 1) p) := by
  obtain ⟨w, p', hr, hp'⟩ := h.factor p (by omega)
  obtain ⟨v', p'', hr', hp''⟩ := h.termLoop w p' (by omega)
  rw [shellCalcTerm, hr, Option.bind_some]
  dsimp only
  rw [hr']
  exact ends_some (by omega)

theorem Total.expressionLoop_succ (h : Total fuel) (v : ℤ) (p : ShellCalcParser)
    (hp : 4 * p.cursor.length + 3 ≤ fuel + 1) :
    Ends p (shellCalcExpressionLoop (fuel + 1) v p) := by
  have hskip := skip_length p
  rw [shellCalcExpressionLoop]
  generalize p.shellCalcSkipSpaces = q at hskip
  have hstep : ∀ {op : UInt8}, q.At op → ∀ f : ℤ → ℤ,
      Ends p ((shellCalcTerm fuel q.advance).bind fun r =>
        shellCalcExpressionLoop fuel (f r.1) (r.2.note (f r.1))) := by
    intro op hop f
    have hlen := At.length hop
    obtain ⟨w, p', hr, hp'⟩ := h.term q.advance (by omega)
    obtain ⟨v', p'', hr', hp''⟩ :=
      h.expressionLoop (f w) (p'.note (f w)) (show 4 * p'.cursor.length + 3 ≤ fuel by omega)
    rw [hr, Option.bind_some, hr']
    exact ends_some (hp''.trans (show p'.cursor.length ≤ _ by omega))
  split_ifs with hplus hminus
  · exact hstep hplus (v + ·)
  · exact hstep hminus (v - ·)
  · exact ends_some hskip

theorem Total.expression_succ (h : Total fuel) (p : ShellCalcParser)
    (hp : 4 * p.cursor.length + 4 ≤ fuel + 1) : Ends p (shellCalcExpression (fuel + 1) p) := by
  obtain ⟨w, p', hr, hp'⟩ := h.term p (by omega)
  obtain ⟨v', p'', hr', hp''⟩ := h.expressionLoop w p' (by omega)
  rw [shellCalcExpression, hr, Option.bind_some]
  dsimp only
  rw [hr']
  exact ends_some (by omega)

theorem total : ∀ fuel, Total fuel
  | 0 => by constructor <;> intros <;> omega
  | fuel + 1 =>
    have h := total fuel
    ⟨h.factor_succ, h.termLoop_succ, h.term_succ, h.expressionLoop_succ, h.expression_succ⟩

theorem shellCalcRun_total (argument : List UInt8) : ∃ v p, shellCalcRun argument = some (v, p) := by
  obtain ⟨v, p, hr, -⟩ :=
    (total (4 * argument.length + 4)).expression { cursor := argument } le_rfl
  exact ⟨v, p.shellCalcSkipSpaces, by rw [shellCalcRun, hr, Option.map_some]⟩

/-! ## What is read without an error is a phrase -/

theorem skip_cursor (p : ShellCalcParser) :
    ∃ sp, Spaces sp ∧ p.cursor = sp ++ p.shellCalcSkipSpaces.cursor :=
  ⟨_, takeWhile_spaces p.cursor, (List.takeWhile_append_dropWhile (p := (· = spaceChar))).symm⟩

theorem exists_digits (cs : List UInt8) : ∃ ds rest, cs = ds ++ rest ∧
    (∀ d ∈ ds, isDigit d = true) ∧ rest.head?.any isDigit = false := by
  refine ⟨cs.takeWhile isDigit, cs.dropWhile isDigit, List.takeWhile_append_dropWhile.symm,
    fun d hd => List.mem_takeWhile_imp hd, ?_⟩
  rcases hrest : cs.dropWhile isDigit with _ | ⟨d, rest⟩
  · rfl
  · have hd := List.head?_dropWhile_not isDigit cs
    rw [hrest] at hd
    simpa using hd

/-- The text of a phrase and spaces after it. -/
def Leads (l : Level) (cursor : List UInt8) (v : ℤ) (after : List UInt8) : Prop :=
  ∃ s sp ns, cursor = s ++ (sp ++ after) ∧ Spaces sp ∧ Phrase l s v ns

structure Sound (fuel : ℕ) : Prop where
  factor : ∀ {p v p'}, shellCalcFactor fuel p = some (v, p') → p'.error = false →
    p.error = false ∧ ∃ s ns, p.cursor = s ++ p'.cursor ∧ Phrase .factor s v ns
  termLoop : ∀ {v p v' p'}, shellCalcTermLoop fuel v p = some (v', p') → p'.error = false →
    p.error = false ∧ ∀ s ns, Phrase .term s v ns → Leads .term (s ++ p.cursor) v' p'.cursor
  term : ∀ {p v p'}, shellCalcTerm fuel p = some (v, p') → p'.error = false →
    p.error = false ∧ Leads .term p.cursor v p'.cursor
  expressionLoop : ∀ {v p v' p'}, shellCalcExpressionLoop fuel v p = some (v', p') →
    p'.error = false → p.error = false ∧
      ∀ cursor, Leads .expression cursor v p.cursor → Leads .expression cursor v' p'.cursor
  expression : ∀ {p v p'}, shellCalcExpression fuel p = some (v, p') → p'.error = false →
    p.error = false ∧ Leads .expression p.cursor v p'.cursor

theorem Sound.factor_succ (h : Sound fuel) (hr : shellCalcFactor (fuel + 1) p = some (v, p'))
    (hp' : p'.error = false) :
    p.error = false ∧ ∃ s ns, p.cursor = s ++ p'.cursor ∧ Phrase .factor s v ns := by
  obtain ⟨sp, hsp, hcursor⟩ := skip_cursor p
  have herror : p.shellCalcSkipSpaces.error = p.error := rfl
  rw [hcursor, ← herror]
  rw [shellCalcFactor] at hr
  dsimp only at hr
  generalize p.shellCalcSkipSpaces = q at hr
  split_ifs at hr with herror hminus hplus hopen hdigit
  · rw [Option.some.injEq, Prod.mk.injEq] at hr
    rw [← hr.2, herror] at hp'
    cases hp'
  · obtain ⟨⟨w, p₁⟩, hr₁, he⟩ := Option.map_eq_some_iff.1 hr
    obtain ⟨rfl, rfl⟩ := he
    obtain ⟨hq, s, ns, hs, hphrase⟩ := h.factor hr₁ hp'
    refine ⟨hq, sp ++ minusChar :: s, _, ?_, .neg hsp hphrase⟩
    rw [At.cursor_eq hminus, hs, List.append_assoc, List.cons_append]
    rfl
  · obtain ⟨hq, s, ns, hs, hphrase⟩ := h.factor hr hp'
    refine ⟨hq, sp ++ plusChar :: s, _, ?_, .pos hsp hphrase⟩
    rw [At.cursor_eq hplus, hs, List.append_assoc, List.cons_append]
  · obtain ⟨⟨w, p₁⟩, hr₁, he⟩ := Option.map_eq_some_iff.1 hr
    obtain ⟨sp₂, hsp₂, hcursor₂⟩ := skip_cursor p₁
    have herror₂ : p₁.shellCalcSkipSpaces.error = p₁.error := rfl
    split_ifs at he with hclose
    · rw [Prod.mk.injEq] at he
      obtain ⟨rfl, rfl⟩ := he
      obtain ⟨hq, s, sp₁, ns, hs, hsp₁, hphrase⟩ := h.expression hr₁ (herror₂.symm.trans hp')
      have hspaces : Spaces (sp₁ ++ sp₂) := by
        intro c hc
        exact (List.mem_append.1 hc).elim (hsp₁ c) (hsp₂ c)
      refine ⟨hq, _, _, ?_, .paren hsp hphrase hspaces⟩
      rw [At.cursor_eq hopen, hs, hcursor₂, At.cursor_eq hclose]
      simp
    · rw [Prod.mk.injEq] at he
      rw [← he.2] at hp'
      cases hp'
  · obtain ⟨ds, rest, hcs, hds, hrest⟩ := exists_digits q.cursor
    rw [hcs, digits_eq _ _ _ _ _ hds hrest, Option.some.injEq, Prod.mk.injEq] at hr
    obtain ⟨rfl, rfl⟩ := hr
    refine ⟨hp', sp ++ ds, _, by rw [hcs, List.append_assoc], .literal hsp ?_ hds⟩
    rintro rfl
    rw [hcs, List.nil_append, hrest] at hdigit
    cases hdigit
  · rw [Option.some.injEq, Prod.mk.injEq] at hr
    rw [← hr.2] at hp'
    cases hp'

theorem Sound.termLoop_succ (h : Sound fuel)
    (hr : shellCalcTermLoop (fuel + 1) v p = some (v', p')) (hp' : p'.error = false) :
    p.error = false ∧
      ∀ s ns, Phrase .term s v ns → Leads .term (s ++ p.cursor) v' p'.cursor := by
  obtain ⟨sp, hsp, hcursor⟩ := skip_cursor p
  have herror : p.shellCalcSkipSpaces.error = p.error := rfl
  rw [hcursor, ← herror]
  rw [shellCalcTermLoop] at hr
  dsimp only at hr
  generalize p.shellCalcSkipSpaces = q at hr
  -- an operand read after the operator, and the loop from the result on
  have hstep : ∀ {op : UInt8}, q.At op → ∀ {w value p₁ p₂},
      shellCalcFactor fuel q.advance = some (w, p₁) → p₂.error = p₁.error →
      p₂.cursor = p₁.cursor → shellCalcTermLoop fuel value p₂ = some (v', p') →
      (∀ s t ns ms, Phrase .term s v ns → Phrase .factor t w ms →
        ∃ ks, Phrase .term (s ++ (sp ++ op :: t)) value ks) →
      q.error = false ∧
        ∀ s ns, Phrase .term s v ns → Leads .term (s ++ (sp ++ q.cursor)) v' p'.cursor := by
    intro op hop w value p₁ p₂ hr₁ herror hcursor hr₂ hphrase
    obtain ⟨hp₂, hloop⟩ := h.termLoop hr₂ hp'
    obtain ⟨hq, t, ms, ht, htphrase⟩ := h.factor hr₁ (herror.symm.trans hp₂)
    refine ⟨hq, fun s ns hs => ?_⟩
    obtain ⟨ks, hks⟩ := hphrase s t ns ms hs htphrase
    have hleads := hloop _ _ hks
    rw [At.cursor_eq hop, ht, ← hcursor]
    simpa using hleads
  split_ifs at hr with hmul hdiv hmod
  · obtain ⟨⟨w, p₁⟩, hr₁, hr₂⟩ := Option.bind_eq_some_iff.1 hr
    exact hstep hmul hr₁ (by rfl) (by rfl) hr₂ fun _ _ _ _ hs ht => ⟨_, .mul hs hsp ht⟩
  · obtain ⟨⟨w, p₁⟩, hr₁, hr₂⟩ := Option.bind_eq_some_iff.1 hr
    split_ifs at hr₂ with hw
    · rw [Option.some.injEq, Prod.mk.injEq] at hr₂
      rw [← hr₂.2] at hp'
      cases hp'
    · exact hstep hdiv hr₁ (by rfl) (by rfl) hr₂ fun _ _ _ _ hs ht => ⟨_, .div hs hsp ht hw⟩
  · obtain ⟨⟨w, p₁⟩, hr₁, hr₂⟩ := Option.bind_eq_some_iff.1 hr
    split_ifs at hr₂ with hw
    · rw [Option.some.injEq, Prod.mk.injEq] at hr₂
      rw [← hr₂.2] at hp'
      cases hp'
    · exact hstep hmod hr₁ (by rfl) (by rfl) hr₂ fun _ _ _ _ hs ht => ⟨_, .mod hs hsp ht hw⟩
  · rw [Option.some.injEq, Prod.mk.injEq] at hr
    obtain ⟨rfl, rfl⟩ := hr
    exact ⟨hp', fun s ns hs => ⟨s, sp, ns, rfl, hsp, hs⟩⟩

theorem Sound.term_succ (h : Sound fuel) (hr : shellCalcTerm (fuel + 1) p = some (v, p'))
    (hp' : p'.error = false) : p.error = false ∧ Leads .term p.cursor v p'.cursor := by
  obtain ⟨⟨w, p₁⟩, hr₁, hr₂⟩ := Option.bind_eq_some_iff.1 hr
  obtain ⟨hp₁, hloop⟩ := h.termLoop hr₂ hp'
  obtain ⟨hp, s, ns, hs, hphrase⟩ := h.factor hr₁ hp₁
  rw [hs]
  exact ⟨hp, hloop s ns (.factor hphrase)⟩

theorem Sound.expressionLoop_succ (h : Sound fuel)
    (hr : shellCalcExpressionLoop (fuel + 1) v p = some (v', p')) (hp' : p'.error = false) :
    p.error = false ∧
      ∀ cursor, Leads .expression cursor v p.cursor → Leads .expression cursor v' p'.cursor := by
  obtain ⟨sp₁, hsp₁, hcursor⟩ := skip_cursor p
  have herror : p.shellCalcSkipSpaces.error = p.error := rfl
  rw [hcursor, ← herror]
  rw [shellCalcExpressionLoop] at hr
  generalize p.shellCalcSkipSpaces = q at hr
  have hspaces : ∀ {sp}, Spaces sp → Spaces (sp ++ sp₁) := fun hsp c hc =>
    (List.mem_append.1 hc).elim (hsp c) (hsp₁ c)
  have hstep : ∀ {op : UInt8}, q.At op → ∀ {w value p₁ p₂},
      shellCalcTerm fuel q.advance = some (w, p₁) → p₂.error = p₁.error →
      p₂.cursor = p₁.cursor → shellCalcExpressionLoop fuel value p₂ = some (v', p') →
      (∀ s sp t ns ms, Phrase .expression s v ns → Spaces sp → Phrase .term t w ms →
        ∃ ks, Phrase .expression (s ++ (sp ++ op :: t)) value ks) →
      q.error = false ∧ ∀ cursor, Leads .expression cursor v (sp₁ ++ q.cursor) →
        Leads .expression cursor v' p'.cursor := by
    intro op hop w value p₁ p₂ hr₁ herror hcursor hr₂ hphrase
    obtain ⟨hp₂, hloop⟩ := h.expressionLoop hr₂ hp'
    obtain ⟨hq, t, sp₂, ms, ht, hsp₂, htphrase⟩ := h.term hr₁ (herror.symm.trans hp₂)
    refine ⟨hq, fun cursor hleads => ?_⟩
    obtain ⟨s, sp, ns, hs, hsp, hsphrase⟩ := hleads
    obtain ⟨ks, hks⟩ := hphrase s (sp ++ sp₁) t ns ms hsphrase (hspaces hsp) htphrase
    refine hloop cursor ⟨_, sp₂, ks, ?_, hsp₂, hks⟩
    rw [hs, At.cursor_eq hop, ht, hcursor]
    simp
  split_ifs at hr with hplus hminus
  · obtain ⟨⟨w, p₁⟩, hr₁, hr₂⟩ := Option.bind_eq_some_iff.1 hr
    exact hstep hplus hr₁ (by rfl) (by rfl) hr₂ fun _ _ _ _ _ hs hsp ht => ⟨_, .add hs hsp ht⟩
  · obtain ⟨⟨w, p₁⟩, hr₁, hr₂⟩ := Option.bind_eq_some_iff.1 hr
    exact hstep hminus hr₁ (by rfl) (by rfl) hr₂ fun _ _ _ _ _ hs hsp ht => ⟨_, .sub hs hsp ht⟩
  · rw [Option.some.injEq, Prod.mk.injEq] at hr
    obtain ⟨rfl, rfl⟩ := hr
    refine ⟨hp', fun cursor hleads => ?_⟩
    obtain ⟨s, sp, ns, hs, hsp, hphrase⟩ := hleads
    exact ⟨s, sp ++ sp₁, ns, by rw [hs, List.append_assoc], hspaces hsp, hphrase⟩

theorem Sound.expression_succ (h : Sound fuel)
    (hr : shellCalcExpression (fuel + 1) p = some (v, p')) (hp' : p'.error = false) :
    p.error = false ∧ Leads .expression p.cursor v p'.cursor := by
  obtain ⟨⟨w, p₁⟩, hr₁, hr₂⟩ := Option.bind_eq_some_iff.1 hr
  obtain ⟨hp₁, hloop⟩ := h.expressionLoop hr₂ hp'
  obtain ⟨hp, s, sp, ns, hs, hsp, hphrase⟩ := h.term hr₁ hp₁
  exact ⟨hp, hloop _ ⟨s, sp, ns, hs, hsp, .term hphrase⟩⟩

theorem sound : ∀ fuel, Sound fuel
  | 0 => by constructor <;> (intros; contradiction)
  | fuel + 1 =>
    have h := sound fuel
    ⟨h.factor_succ, h.termLoop_succ, h.term_succ, h.expressionLoop_succ, h.expression_succ⟩

theorem derives_of_shellCalcRun {argument : List UInt8}
    (hr : shellCalcRun argument = some (v, p)) (hp : p.error = false) (hend : p.cursor = []) :
    ∃ ns, Derives argument v ns := by
  obtain ⟨⟨w, p₁⟩, hr₁, he⟩ := Option.map_eq_some_iff.1 hr
  obtain ⟨rfl, rfl⟩ := he
  obtain ⟨-, s, sp, ns, hs, hsp, hphrase⟩ := (sound _).expression hr₁ hp
  obtain ⟨sp', hsp', hcursor⟩ := skip_cursor p₁
  rw [hend, List.append_nil] at hcursor
  refine ⟨ns, s, sp ++ sp', by rw [← hcursor]; exact hs, fun c hc => ?_, hphrase⟩
  exact (List.mem_append.1 hc).elim (hsp c) (hsp' c)

/-! ## What is put out -/

def decimal (v : ℤ) : List Char :=
  if v < 0 then '-' :: Nat.toDigits 10 v.natAbs else Nat.toDigits 10 v.natAbs

theorem minus_not_mem_toDigits (n : ℕ) : '-' ∉ Nat.toDigits 10 n := fun h =>
  absurd (Nat.isDigit_of_mem_toDigits (by decide) (by decide) h) (by decide)

theorem toDigits_injective {m n : ℕ} (h : Nat.toDigits 10 m = Nat.toDigits 10 n) : m = n := by
  have hm := Nat.ofDigitChars_ten_toDigits (n := m)
  rwa [h, Nat.ofDigitChars_ten_toDigits, eq_comm] at hm

theorem decimal_injective (h : decimal v = decimal v') : v = v' := by
  unfold decimal at h
  split_ifs at h with hv hv' hv'
  · have habs := toDigits_injective (List.cons.inj h).2
    omega
  · exact absurd (h ▸ List.mem_cons_self) (minus_not_mem_toDigits _)
  · exact absurd (h ▸ List.mem_cons_self) (minus_not_mem_toDigits _)
  · have habs := toDigits_injective h
    omega

def resultLine (v : ℤ) : List Char := "= ".toList ++ decimal v

def invalidLine : List Char := "calc: invalid expression".toList

theorem resultLine_ne_invalid (v : ℤ) : resultLine v ≠ invalidLine := fun h => by
  have hhead := congrArg List.head? h
  rw [resultLine, List.head?_append, show "= ".toList.head? = some '=' by decide,
    show invalidLine.head? = some 'c' by decide, Option.some_or] at hhead
  exact absurd hhead (by decide)

theorem shellValueLine_result (hv : v ≠ -2 ^ 63) :
    shellValueLine "= ".toList v [] = some (resultLine v) := by
  have hlabel : fill [] "= ".toList = "= ".toList := by decide
  have hsign : fill "= ".toList ['-'] = "= ".toList ++ ['-'] := by decide
  unfold shellValueLine resultLine decimal
  dsimp only
  rw [if_neg hv, hlabel, hsign]
  by_cases hneg : v < 0
  · rw [if_pos hneg, if_pos hneg, if_pos (by decide), fill, List.take_nil, List.append_nil,
      shellFormatU64, List.append_assoc, List.singleton_append]
  · rw [if_neg hneg, if_neg hneg, if_pos (by decide), fill, List.take_nil, List.append_nil,
      shellFormatU64]

theorem shellValueLine_min : shellValueLine "= ".toList (-2 ^ 63) [] = none := by
  unfold shellValueLine
  rw [if_pos rfl]

variable {argument : List UInt8} {ns : List ℤ}

theorem shellCmdCalc_derives (hne : argument ≠ []) (h : Derives argument v ns) :
    shellCmdCalc argument
      = if (∀ n ∈ ns, Fits n) ∧ v ≠ -2 ^ 63 then some [resultLine v] else none := by
  obtain ⟨ms, hfit, hr⟩ := shellCalcRun_derives h
  rw [shellCmdCalc, if_neg hne, hr, Option.bind_some]
  dsimp only
  rw [show (reading [] ms).numbers = ms from rfl]
  by_cases hns : ∀ n ∈ ns, Fits n
  · rw [if_neg (not_not_intro (hfit.2 hns)), if_neg (by simp [reading])]
    by_cases hv : v = -2 ^ 63
    · rw [hv, shellValueLine_min, if_neg (fun h => h.2 rfl), Option.map_none]
    · rw [shellValueLine_result hv, if_pos ⟨hns, hv⟩, Option.map_some]
  · rw [if_pos (fun hms => hns (hfit.1 hms)), if_neg (fun h => hns h.1)]

theorem shellCmdCalc_underivable (hne : argument ≠ []) (h : ¬ ∃ v ns, Derives argument v ns) :
    ∃ v p, shellCalcRun argument = some (v, p) ∧
      shellCmdCalc argument = if ∀ n ∈ p.numbers, Fits n then some [invalidLine] else none := by
  obtain ⟨v, p, hr⟩ := shellCalcRun_total argument
  refine ⟨v, p, hr, ?_⟩
  have hbad : p.error = true ∨ p.cursor ≠ [] := by
    by_contra hgood
    rw [not_or, Bool.not_eq_true, not_not] at hgood
    obtain ⟨ns, hd⟩ := derives_of_shellCalcRun hr hgood.1 hgood.2
    exact h ⟨v, ns, hd⟩
  rw [shellCmdCalc, if_neg hne, hr, Option.bind_some]
  dsimp only
  split_ifs <;> rfl

/-- The empty argument asks for the usage line. Of any other, the value is put out exactly where
the grammar derives it and every number of its evaluation, and the value negated, fit 64 bits; a
text the grammar does not derive is reported where no signed operation on the way overflows. -/
theorem calculator_follows_grammar (argument : List UInt8) :
    (argument = [] → shellCmdCalc argument = some ["usage: calc <expression>".toList]) ∧
    (argument ≠ [] →
      (∀ v, shellCmdCalc argument = some [resultLine v] ↔
        v ≠ -2 ^ 63 ∧ ∃ ns, Derives argument v ns ∧ ∀ n ∈ ns, Fits n) ∧
      ((¬ ∃ v ns, Derives argument v ns) → ∃ v p, shellCalcRun argument = some (v, p) ∧
        shellCmdCalc argument
          = if ∀ n ∈ p.numbers, Fits n then some [invalidLine] else none)) := by
  refine ⟨fun h => by rw [shellCmdCalc, if_pos h], fun hne => ⟨fun v => ?_, fun h => ?_⟩⟩
  · constructor
    · intro hline
      by_cases hd : ∃ w ns, Derives argument w ns
      · obtain ⟨w, ns, hd⟩ := hd
        rw [shellCmdCalc_derives hne hd] at hline
        split_ifs at hline with hfit
        rw [Option.some.injEq, List.cons.injEq] at hline
        obtain rfl := decimal_injective (List.append_cancel_left hline.1)
        exact ⟨hfit.2, ns, hd, hfit.1⟩
      · obtain ⟨w, p, -, hr⟩ := shellCmdCalc_underivable hne hd
        rw [hr] at hline
        split_ifs at hline
        rw [Option.some.injEq, List.cons.injEq] at hline
        exact absurd hline.1.symm (resultLine_ne_invalid v)
    · rintro ⟨hv, ns, hd, hfit⟩
      rw [shellCmdCalc_derives hne hd, if_pos ⟨hfit, hv⟩]
  · exact shellCmdCalc_underivable hne h

/-- The empty string is neither evaluated nor reported, and the literal 2^63 overflows. -/
theorem calculator_leaves_grammar :
    shellCmdCalc [] ≠ some [invalidLine] ∧
      shellCmdCalc "9223372036854775808".toUTF8.toList = none := by
  refine ⟨by decide, by decide +kernel⟩

end DemonOS.Shell
