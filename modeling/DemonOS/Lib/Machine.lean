import Mathlib.Algebra.GroupWithZero.Nat
import Mathlib.Data.List.Basic

/-!
# Runs of a machine

A machine is a total step function; a run is the fold of its steps over a list of events. A
property every step keeps holds along every run (`run_inv`), and one a step keeps only from states
and events that meet a condition holds along the runs all of whose steps meet it
(`run_inv_of_meets`). What every step keeps or brings to an end is kept up to the first step that
ends it (`run_until`).
-/

namespace Machine

variable {σ ε : Type*} (step : σ → ε → σ)

/-- The state a list of events leads to. -/
def run (s : σ) (es : List ε) : σ := es.foldl step s

/-- Every step of the run meets `ok`, judged in the state it is taken from. -/
def Meets (ok : σ → ε → Prop) : σ → List ε → Prop
  | _, [] => True
  | s, e :: es => ok s e ∧ Meets ok (step s e) es

instance decidableMeets {ok : σ → ε → Prop} [∀ s e, Decidable (ok s e)] :
    ∀ (s : σ) (es : List ε), Decidable (Meets step ok s es)
  | _, [] => isTrue trivial
  | s, e :: es => @instDecidableAnd _ _ inferInstance (decidableMeets (step s e) es)

@[simp] theorem run_nil (s : σ) : run step s [] = s := rfl

@[simp] theorem run_cons (s : σ) (e : ε) (es : List ε) :
    run step s (e :: es) = run step (step s e) es := rfl

theorem run_append (s : σ) (es fs : List ε) :
    run step s (es ++ fs) = run step (run step s es) fs := List.foldl_append

theorem run_concat (s : σ) (es : List ε) (e : ε) :
    run step s (es ++ [e]) = step (run step s es) e := by
  rw [run_append]
  rfl

theorem meets_append {ok : σ → ε → Prop} (s : σ) (es fs : List ε) :
    Meets step ok s (es ++ fs) ↔ Meets step ok s es ∧ Meets step ok (run step s es) fs := by
  induction es generalizing s with
  | nil => exact ⟨fun h => ⟨trivial, h⟩, fun h => h.2⟩
  | cons e es ih =>
    simp only [List.cons_append, Meets, run_cons, ih, and_assoc]

theorem meets_of_forall {ok : σ → ε → Prop} (es : List ε) (s : σ)
    (h : ∀ s, ∀ e ∈ es, ok s e) : Meets step ok s es := by
  induction es generalizing s with
  | nil => trivial
  | cons e es ih =>
    exact ⟨h s e List.mem_cons_self, ih _ fun s e he => h s e (List.mem_cons_of_mem _ he)⟩

theorem run_inv_of_meets {ok : σ → ε → Prop} {I : σ → Prop}
    (hstep : ∀ s e, I s → ok s e → I (step s e)) :
    ∀ (es : List ε) (s : σ), I s → Meets step ok s es → I (run step s es)
  | [], _, hs, _ => hs
  | e :: es, s, hs, hm => run_inv_of_meets hstep es (step s e) (hstep s e hs hm.1) hm.2

/-- What follows from a condition where an invariant holds is met by the runs that meet the
condition, if a step that meets it keeps the invariant. -/
theorem meets_imp {ok ok' : σ → ε → Prop} {I : σ → Prop} (himp : ∀ s e, I s → ok s e → ok' s e)
    (hstep : ∀ s e, I s → ok s e → I (step s e)) :
    ∀ (es : List ε) (s : σ), I s → Meets step ok s es → Meets step ok' s es
  | [], _, _, _ => trivial
  | e :: es, s, hs, hm =>
    ⟨himp s e hs hm.1, meets_imp himp hstep es (step s e) (hstep s e hs hm.1) hm.2⟩

/-- Two conditions that agree where an invariant holds are met by the same runs, if a step that meets
them keeps the invariant. -/
theorem meets_congr {ok ok' : σ → ε → Prop} {I : σ → Prop}
    (hagree : ∀ s e, I s → (ok s e ↔ ok' s e)) (hstep : ∀ s e, I s → ok s e → I (step s e)) :
    ∀ (es : List ε) (s : σ), I s → (Meets step ok s es ↔ Meets step ok' s es)
  | [], _, _ => Iff.rfl
  | e :: es, s, hs => by
    unfold Meets
    rw [← hagree s e hs]
    exact and_congr_right fun hok => meets_congr hagree hstep es (step s e) (hstep s e hs hok)

/-- What holds in the first state holds in every state of the run just when every step leads to a
state in which it holds. -/
theorem prefixes_iff {I : σ → Prop} : ∀ (es : List ε) (s : σ), I s →
    ((∀ before, before <+: es → I (run step s before))
      ↔ Meets step (fun s e => I (step s e)) s es)
  | [], s, hs => by
    refine iff_of_true (fun before hbefore => ?_) trivial
    rw [List.prefix_nil.1 hbefore]
    exact hs
  | e :: es, s, hs => by
    unfold Meets
    constructor
    · intro h
      have hfirst : I (step s e) := h [e] (List.cons_prefix_cons.2 ⟨rfl, List.nil_prefix⟩)
      refine ⟨hfirst, (prefixes_iff es (step s e) hfirst).1 fun before hbefore => ?_⟩
      exact h (e :: before) (List.cons_prefix_cons.2 ⟨rfl, hbefore⟩)
    · rintro ⟨hfirst, hrest⟩ (_ | ⟨f, before⟩) hbefore
      · exact hs
      · obtain ⟨rfl, hafter⟩ := List.cons_prefix_cons.1 hbefore
        exact (prefixes_iff es _ hfirst).2 hrest before hafter

/-- A quantity is the sum of what the events bring in, at every point of the run, just when every
step adds what its event brings in. -/
theorem counts_iff {κ : Type*} (m : σ → κ → ℕ) (w : ε → κ → ℕ) : ∀ (es : List ε) (s : σ),
    (∀ before, before <+: es → ∀ k,
        m (run step s before) k = m s k + (before.map fun e => w e k).sum)
      ↔ Meets step (fun s e => ∀ k, m (step s e) k = m s k + w e k) s es
  | [], s => by
    refine iff_of_true (fun before hbefore k => ?_) trivial
    rw [List.prefix_nil.1 hbefore]
    rfl
  | e :: es, s => by
    unfold Meets
    rw [← counts_iff m w es (step s e)]
    constructor
    · intro h
      have hfirst : ∀ k, m (step s e) k = m s k + w e k := fun k => by
        simpa using h [e] (List.cons_prefix_cons.2 ⟨rfl, List.nil_prefix⟩) k
      refine ⟨hfirst, fun before hbefore k => ?_⟩
      have := h (e :: before) (List.cons_prefix_cons.2 ⟨rfl, hbefore⟩) k
      rw [run_cons, List.map_cons, List.sum_cons] at this
      rw [this, hfirst, Nat.add_assoc]
    · rintro ⟨hfirst, hrest⟩ (_ | ⟨f, before⟩) hbefore k
      · rfl
      · obtain ⟨rfl, hafter⟩ := List.cons_prefix_cons.1 hbefore
        rw [run_cons, hrest before hafter k, hfirst, List.map_cons, List.sum_cons, Nat.add_assoc]

theorem run_inv {I : σ → Prop} (hstep : ∀ s e, I s → I (step s e)) (es : List ε) (s : σ)
    (hs : I s) : I (run step s es) := by
  induction es generalizing s with
  | nil => exact hs
  | cons e es ih => exact ih (step s e) (hstep s e hs)

theorem run_until {ok : σ → ε → Prop} {I : σ → Prop} (stays : σ → Prop) (ends : σ → ε → Prop)
    (hI : ∀ s e, I s → ok s e → I (step s e))
    (hstep : ∀ s e, I s → ok s e → stays s → stays (step s e) ∨ ends s e) :
    ∀ (es : List ε) (s : σ), I s → Meets step ok s es → stays s →
      (∀ before, before <+: es → stays (run step s before))
        ∨ ∃ before e after, es = before ++ e :: after
          ∧ (∀ first, first <+: before → stays (run step s first)) ∧ ends (run step s before) e
  | [], s, _, _, hs => by
    refine .inl fun before hbefore => ?_
    rw [List.prefix_nil.1 hbefore]
    exact hs
  | e :: es, s, hi, hm, hs => by
    have hfirst : ∀ first, first <+: [] → stays (run step s first) := by
      intro first hfirst
      rw [List.prefix_nil.1 hfirst]
      exact hs
    have hcons : ∀ {fs : List ε}, (∀ before, before <+: fs → stays (run step (step s e) before)) →
        ∀ before, before <+: e :: fs → stays (run step s before) := by
      rintro fs h (_ | ⟨f, before⟩) hbefore
      · exact hs
      · obtain ⟨rfl, hrest⟩ := List.cons_prefix_cons.1 hbefore
        exact h before hrest
    rcases hstep s e hi hm.1 hs with hstays | hends
    · rcases run_until stays ends hI hstep es (step s e) (hI s e hi hm.1) hm.2 hstays with
        h | ⟨before, f, after, rfl, h, hends⟩
      · exact .inl (hcons h)
      · exact .inr ⟨e :: before, f, after, rfl, hcons h, hends⟩
    · exact .inr ⟨[], e, es, rfl, hfirst, hends⟩

end Machine

/-!
## Slots that are used again

A table's slots die and are filled again, and holders name slots by number. A `History` counts how
often each slot has come to life and notes, for each holder, the count of the slot it named when it
began to. `Faithful` says that what a holder names now is what it named then. A step keeps that
when holders do not change what they name and no slot comes to life that a holder still names
(`Faithful.next`).
-/

namespace Instances

variable {σ ε ι κ : Type*}

/-- The slots `ι` of a state that are live, and the slot each of the holders `κ` names. -/
structure Watch (σ ι κ : Type*) where
  live : σ → ι → Bool
  names : σ → κ → Option ι

structure History (ι κ : Type*) where
  born : ι → ℕ := fun _ => 0
  issued : κ → ℕ := fun _ => 0

namespace Watch

variable (w : Watch σ ι κ)

/-- How often each slot has come to life, after a step. -/
def born (h : History ι κ) (s s' : σ) (i : ι) : ℕ :=
  if w.live s i = false ∧ w.live s' i = true then h.born i + 1 else h.born i

/-- The history after a step from `s` to `s'`. -/
def next (h : History ι κ) (s s' : σ) : History ι κ where
  born := w.born h s s'
  issued := fun a =>
    match w.names s a, w.names s' a with
    | none, some i => w.born h s s' i
    | _, _ => h.issued a

/-- The machine that keeps the history along with its state. -/
def traced (step : σ → ε → σ) (t : σ × History ι κ) (e : ε) : σ × History ι κ :=
  (step t.1 e, w.next t.2 t.1 (step t.1 e))

theorem run_traced_fst (step : σ → ε → σ) :
    ∀ (es : List ε) (t : σ × History ι κ),
      (Machine.run (w.traced step) t es).1 = Machine.run step t.1 es
  | [], _ => rfl
  | e :: es, t => run_traced_fst step es (w.traced step t e)

theorem meets_traced {step : σ → ε → σ} {ok : σ → ε → Prop} :
    ∀ (es : List ε) (t : σ × History ι κ), Machine.Meets step ok t.1 es →
      Machine.Meets (w.traced step) (fun t e => ok t.1 e) t es
  | [], _, _ => trivial
  | e :: es, t, h => ⟨h.1, meets_traced es (w.traced step t e) h.2⟩

/-- Each holder names the life of the slot that it named from the start. -/
def Faithful (t : σ × History ι κ) : Prop :=
  ∀ a i, w.names t.1 a = some i → t.2.issued a = t.2.born i

variable {w}

theorem Faithful.next {h : History ι κ} {s s' : σ} (hf : w.Faithful (s, h))
    (hkeep : ∀ a i, w.names s a = some i → w.names s' a = none ∨ w.names s' a = some i)
    (hfresh : ∀ i, w.live s i = false → w.live s' i = true → ∀ a, w.names s a ≠ some i) :
    w.Faithful (s', w.next h s s') := by
  intro a i ha
  simp only [Watch.next]
  cases hs : w.names s a with
  | none =>
    replace ha : w.names s' a = some i := ha
    rw [ha]
  | some j =>
    have hji : j = i := by
      rcases hkeep a j hs with hnone | hsome
      · exact absurd (hnone.symm.trans ha) (by simp)
      · exact Option.some.inj (hsome.symm.trans ha)
    subst hji
    rw [hf a j hs, born, if_neg]
    rintro ⟨hdead, hlive⟩
    exact hfresh j hdead hlive a hs

end Watch

end Instances
