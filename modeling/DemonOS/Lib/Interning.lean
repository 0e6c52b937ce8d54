import Mathlib.Data.List.Infix

/-!
# Interning

A table that numbers names in the order in which they come: a name that is known keeps its number,
and a new one gets the next where there is room. The answers given so far agree (`RoundTrips`) when
no name has two numbers and no number two names, nothing is made that was not to be, and the name of
a number is the one that got it. The answers of such a table agree where the names it gives back are
the ones it holds (`Records.agrees_interned`, `Records.agrees_named_iff`).
-/

namespace Interning

variable {α ι : Type*}

/-- What a request was answered with: a name with its number, and whether it has been made, or a
number with its name. -/
inductive Answer (α ι : Type*) where
  | interned (name : α) (create made : Bool) (id : Option ι)
  | named (id : ι) (name : Option α)
deriving DecidableEq

def Agrees (null : ι) (earlier : List (Answer α ι)) : Answer α ι → Prop
  | .interned name create made id =>
    (∀ c m a, .interned name c m (some a) ∈ earlier → id = some a)
      ∧ (∀ a, id = some a → a ≠ null ∧ ∀ k c m, .interned k c m (some a) ∈ earlier → k = name)
      ∧ (create = false → made = false)
  | .named a name => ∀ k c m, .interned k c m (some a) ∈ earlier → name = some k

def RoundTrips (null : ι) (answers : List (Answer α ι)) : Prop :=
  ∀ earlier answer, earlier ++ [answer] <+: answers → Agrees null earlier answer

theorem roundTrips_nil (null : ι) : RoundTrips null ([] : List (Answer α ι)) := fun earlier answer h =>
  absurd (List.prefix_nil.1 h) (by simp)

theorem roundTrips_concat {null : ι} {answers : List (Answer α ι)} {answer : Answer α ι} :
    RoundTrips null (answers ++ [answer]) ↔ RoundTrips null answers ∧ Agrees null answers answer := by
  constructor
  · intro h
    exact ⟨fun earlier a ha => h earlier a (ha.trans (List.prefix_append _ _)),
      h answers answer List.prefix_rfl⟩
  · rintro ⟨h, hlast⟩ earlier a ha
    rcases List.prefix_concat_iff.1 ha with heq | hbefore
    · obtain ⟨rfl, hsame⟩ := List.append_inj' heq rfl
      obtain rfl := List.singleton_injective hsame
      exact hlast
    · exact h earlier a hbefore

variable [BEq α]

structure Records (code : ℕ → ι) (names : List α) (answers : List (Answer α ι)) : Prop where
  known : ∀ {name create made a}, .interned name create made (some a) ∈ answers →
    name ∈ names ∧ a = code (names.idxOf name)
  told : ∀ name ∈ names, ∃ create made,
    .interned name create made (some (code (names.idxOf name))) ∈ answers

section

variable {code : ℕ → ι} {null : ι} {names : List α} {answers : List (Answer α ι)} {capacity : ℕ}

theorem records_nil (code : ℕ → ι) : Records code ([] : List α) [] where
  known h := by cases h
  told _ h := by cases h

theorem Records.congr (h : Records code names answers) {answer : Answer α ι}
    (hnew : ∀ name create made a, answer = .interned name create made (some a) →
      name ∈ names ∧ a = code (names.idxOf name)) : Records code names (answers ++ [answer]) where
  known hmem := by
    rcases List.mem_append.1 hmem with hold | hlast
    · exact h.known hold
    · exact hnew _ _ _ _ (List.mem_singleton.1 hlast).symm
  told name hname := by
    obtain ⟨create, made, hmem⟩ := h.told name hname
    exact ⟨create, made, List.mem_append_left _ hmem⟩

variable [LawfulBEq α]

/-- The number of a name, and the names there are once it has been asked for. -/
def intern (capacity : ℕ) (names : List α) (name : α) (create : Bool) : Option ℕ × List α :=
  if name ∈ names then (some (names.idxOf name), names)
  else if create = true ∧ names.length < capacity then (some names.length, names ++ [name])
  else (none, names)

theorem Records.interned (h : Records code names answers) (name : α) (create made : Bool) :
    Records code (intern capacity names name create).2
      (answers ++ [.interned name create made ((intern capacity names name create).1.map code)]) := by
  unfold intern
  split_ifs with hknown hmake
  · refine h.congr fun name' create' made' a heq => ?_
    cases heq
    exact ⟨hknown, rfl⟩
  · have hidx : ∀ k ∈ names, (names ++ [name]).idxOf k = names.idxOf k := fun k hk =>
      List.idxOf_append_of_mem hk
    have hself : (names ++ [name]).idxOf name = names.length := by
      rw [List.idxOf_append_of_notMem hknown, List.idxOf_cons_self, Nat.add_zero]
    refine ⟨fun hmem => ?_, fun k hk => ?_⟩
    · rcases List.mem_append.1 hmem with hold | hlast
      · obtain ⟨hk, ha⟩ := h.known hold
        exact ⟨List.mem_append_left _ hk, by rw [hidx _ hk, ha]⟩
      · cases List.mem_singleton.1 hlast
        exact ⟨by simp, by rw [hself]⟩
    · rcases List.mem_append.1 hk with hold | hlast
      · obtain ⟨c, m, hmem⟩ := h.told k hold
        exact ⟨c, m, List.mem_append_left _ (by rwa [hidx k hold])⟩
      · obtain rfl := List.mem_singleton.1 hlast
        exact ⟨create, made, List.mem_append_right _ (by rw [hself]; simp)⟩
  · refine h.congr fun name' create' made' a heq => ?_
    cases heq

theorem Records.agrees_interned (h : Records code names answers)
    (hinj : ∀ i j, i < capacity → j < capacity → code i = code j → i = j)
    (hnull : ∀ i < capacity, code i ≠ null) (hroom : names.length ≤ capacity) (name : α)
    {create made : Bool} (hmade : create = false → made = false) :
    Agrees null answers
      (.interned name create made ((intern capacity names name create).1.map code)) := by
  have hlt : ∀ k ∈ names, names.idxOf k < capacity := fun k hk =>
    lt_of_lt_of_le (List.idxOf_lt_length_of_mem hk) hroom
  refine ⟨fun c m a hmem => ?_, fun a ha => ?_, hmade⟩
  · obtain ⟨hknown, ha⟩ := h.known hmem
    rw [intern, if_pos hknown, ha]
    rfl
  · obtain ⟨i, hi, rfl⟩ := Option.map_eq_some_iff.1 ha
    unfold intern at hi
    split_ifs at hi with hknown hmake
    · obtain rfl := Option.some.inj hi
      refine ⟨hnull _ (hlt name hknown), fun k c m hmem => ?_⟩
      obtain ⟨hk, hcode⟩ := h.known hmem
      have hsame := hinj _ _ (hlt name hknown) (hlt k hk) hcode
      exact ((List.idxOf_inj hknown).1 hsame).symm
    · obtain rfl := Option.some.inj hi
      refine ⟨hnull _ hmake.2, fun k c m hmem => ?_⟩
      obtain ⟨hk, hcode⟩ := h.known hmem
      have hsame := hinj _ _ hmake.2 (hlt k hk) hcode
      have hin := List.idxOf_lt_length_of_mem hk
      omega

/-- The name of a number that is given back is the one that was given it. -/
theorem Records.agrees_named_iff (h : Records code names answers) (hnodup : names.Nodup) {i : ℕ}
    (hinj : ∀ j < names.length, code i = code j → i = j) (hi : i < names.length)
    (name : Option α) : Agrees null answers (.named (code i) name) ↔ name = some (names[i]) := by
  have hidx : names.idxOf names[i] = i := hnodup.idxOf_getElem i hi
  constructor
  · intro hagrees
    obtain ⟨c, m, hmem⟩ := h.told _ (List.getElem_mem hi)
    rw [hidx] at hmem
    exact hagrees _ c m hmem
  · rintro rfl k c m hmem
    obtain ⟨hk, hcode⟩ := h.known hmem
    have hsame := hinj _ (List.idxOf_lt_length_of_mem hk) hcode
    congr 1
    rw [← List.getElem_idxOf (List.idxOf_lt_length_of_mem hk)]
    congr 1

theorem Records.agrees_unnamed (h : Records code names answers) {a : ι}
    (ha : ∀ i < names.length, a ≠ code i) (name : Option α) :
    Agrees null answers (.named a name) := fun _ _ _ hmem =>
  absurd (h.known hmem).2 (ha _ (List.idxOf_lt_length_of_mem (h.known hmem).1))

end

end Interning
