import DemonOS.Lib.KeyedTable

/-!
# Tables filled in turn

A keyed table of `n` slots in which each new key takes the slot after the last one, whatever that
holds, while a key that is there keeps its slot. With the keys that were ever inserted in a list, the
newest first, the table holds the first `n` of the list and nothing else (`get_isSome_iff`), each
once (`unique`), and as many of its slots are taken (`taken`).
-/

namespace RoundRobin

variable {α κ : Type*} [DecidableEq κ]

/-- The slots hold the last `n` keys inserted, and the next key goes to the slot after the last. -/
structure Recent (n : ℕ) (key : α → Option κ) (f : ℕ → α) (next : ℕ) (inserted : List κ) :
    Prop where
  next_eq : next = inserted.length % n
  holds : ∀ i k, i < n → inserted[i]? = some k →
    key (f ((inserted.length - 1 - i) % n)) = some k
  free : ∀ j, j < n → inserted.length ≤ j → key (f j) = none
  nodup : (inserted.take n).Nodup

/-- Counted back from the last, every slot in use is the place of one of the last `n` keys. -/
theorem place_eq {n count j : ℕ} (hj : j < n) (hlt : j < count) :
    (count - 1 - (count - 1 - j) % n) % n = j := by
  have hsplit := Nat.mod_add_div (count - 1 - j) n
  rw [show count - 1 - (count - 1 - j) % n = j + n * ((count - 1 - j) / n) by omega,
    Nat.add_mul_mod_self_left, Nat.mod_eq_of_lt hj]

theorem countP_range_lt (m : ℕ) : ∀ n, (List.range n).countP (· < m) = min n m
  | 0 => by simp
  | n + 1 => by
    rw [List.range_succ, List.countP_append, countP_range_lt m n, List.countP_singleton]
    split_ifs with hlt
    · have := of_decide_eq_true hlt
      omega
    · have := mt decide_eq_true hlt
      omega

variable {n : ℕ} {key : α → Option κ} {f : ℕ → α} {next : ℕ} {inserted : List κ} {j : ℕ} {k : κ}

omit [DecidableEq κ] in
theorem recent_nil (h : ∀ j, j < n → key (f j) = none) : Recent n key f 0 [] :=
  ⟨(Nat.zero_mod n).symm, by simp, fun j hj _ => h j hj, by simp⟩

omit [DecidableEq κ] in
theorem mem_take_iff : k ∈ inserted.take n ↔ ∃ i, i < n ∧ inserted[i]? = some k := by
  rw [List.mem_iff_getElem?]
  refine exists_congr fun i => ?_
  rw [List.getElem?_take]
  split_ifs with hi <;> simp [hi]

omit [DecidableEq κ] in
theorem Recent.of_lt (h : Recent n key f next inserted) (hj : j < n) (hlt : j < inserted.length) :
    ∃ i k, i < n ∧ inserted[i]? = some k ∧ key (f j) = some k
      ∧ (inserted.length - 1 - i) % n = j := by
  have hi : (inserted.length - 1 - j) % n < n := Nat.mod_lt _ (by omega)
  have hle : (inserted.length - 1 - j) % n < inserted.length :=
    (Nat.mod_le _ _).trans_lt (by omega)
  have hsome := List.getElem?_eq_getElem hle
  have hplace := place_eq hj hlt
  have hhere := h.holds _ _ hi hsome
  rw [hplace] at hhere
  exact ⟨_, _, hi, hsome, hhere, hplace⟩

omit [DecidableEq κ] in
theorem Recent.of_slot (h : Recent n key f next inserted) (hj : j < n) (hk : key (f j) = some k) :
    ∃ i, i < n ∧ inserted[i]? = some k ∧ (inserted.length - 1 - i) % n = j := by
  have hlt : j < inserted.length := by
    by_contra hle
    rw [h.free j hj (by omega)] at hk
    cases hk
  obtain ⟨i, k', hi, hsome, hhere, hplace⟩ := h.of_lt hj hlt
  obtain rfl : k = k' := Option.some.inj (hk.symm.trans hhere)
  exact ⟨i, hi, hsome, hplace⟩

omit [DecidableEq κ] in
theorem Recent.unique (h : Recent n key f next inserted) : KeyedTable.Unique n key f := by
  intro j hj j' hj' k hk hk'
  obtain ⟨i, hi, hsome, rfl⟩ := h.of_slot hj hk
  obtain ⟨i', hi', hsome', rfl⟩ := h.of_slot hj' hk'
  have hsame : (inserted.take n)[i]? = (inserted.take n)[i']? := by
    rw [List.getElem?_take, List.getElem?_take, if_pos hi, if_pos hi', hsome, hsome']
  have hlt := (List.getElem?_eq_some_iff.1 hsome).1
  rw [(List.getElem?_inj (by rw [List.length_take]; omega) h.nodup).1 hsame]

theorem Recent.get_isSome_iff (h : Recent n key f next inserted) :
    (KeyedTable.get n key f k).isSome = true ↔ k ∈ inserted.take n := by
  rw [← Option.ne_none_iff_isSome, Ne, KeyedTable.get_eq_none, mem_take_iff]
  constructor
  · intro hsome
    push Not at hsome
    obtain ⟨j, hj, hk⟩ := hsome
    obtain ⟨i, hi, hins, -⟩ := h.of_slot hj hk
    exact ⟨i, hi, hins⟩
  · rintro ⟨i, hi, hins⟩ hnone
    exact hnone _ (Nat.mod_lt _ (by omega)) (h.holds i k hi hins)

omit [DecidableEq κ] in
theorem Recent.change (h : Recent n key f next inserted) {v : α} (hv : key v = key (f j)) :
    Recent n key (Function.update f j v) next inserted := by
  have hkey : ∀ i, key (Function.update f j v i) = key (f i) := fun i => by
    rcases eq_or_ne i j with rfl | hne
    · rw [Function.update_self, hv]
    · rw [Function.update_of_ne hne]
  exact ⟨h.next_eq, fun i k hi hk => (hkey _).trans (h.holds i k hi hk),
    fun i hi hle => (hkey i).trans (h.free i hi hle), h.nodup⟩

omit [DecidableEq κ] in
theorem Recent.insert (h : Recent n key f next inserted) {v : α} (hv : key v = some k)
    (hnew : k ∉ inserted.take n) (hn : 0 < n) :
    Recent n key (Function.update f next v) ((next + 1) % n) (k :: inserted) := by
  have hnext := h.next_eq
  refine ⟨?_, fun i k' hi hk' => ?_, fun j hj hle => ?_, ?_⟩
  · rw [hnext, List.length_cons, Nat.mod_add_mod]
  · rcases i with _ | i
    · obtain rfl : k = k' := by simpa using hk'
      rw [List.length_cons, Nat.add_sub_cancel, Nat.sub_zero, ← hnext, Function.update_self, hv]
    · rw [List.getElem?_cons_succ] at hk'
      have hlt := (List.getElem?_eq_some_iff.1 hk').1
      have hplace := h.holds i k' (by omega) hk'
      rw [List.length_cons, show inserted.length + 1 - 1 - (i + 1) = inserted.length - 1 - i by omega]
      -- The slots of the last `n - 1` keys are not the next one.
      have hother : (inserted.length - 1 - i) % n ≠ next := by
        intro heq
        have hdvd := Nat.sub_mod_eq_zero_of_mod_eq (heq.trans hnext).symm
        rw [show inserted.length - (inserted.length - 1 - i) = i + 1 by omega,
          Nat.mod_eq_of_lt hi] at hdvd
        omega
      rwa [Function.update_of_ne hother]
  · rw [List.length_cons] at hle
    rw [Function.update_of_ne (by rw [hnext, Nat.mod_eq_of_lt (by omega)]; omega)]
    exact h.free j hj (by omega)
  · obtain ⟨n, rfl⟩ := Nat.exists_eq_add_of_lt hn
    rw [Nat.zero_add] at h hnew ⊢
    rw [List.take_succ_cons, List.nodup_cons]
    have hshared : inserted.take n <+: inserted.take (n + 1) :=
      List.take_prefix_take_left (by omega)
    exact ⟨fun hmem => hnew (hshared.subset hmem), h.nodup.sublist hshared.sublist⟩

omit [DecidableEq κ] in
/-- The slots in use, as many as keys were inserted until there are no more. -/
theorem Recent.taken (h : Recent n key f next inserted) :
    (List.range n).countP (fun j => (key (f j)).isSome) = min n inserted.length := by
  rw [← countP_range_lt]
  refine List.countP_congr fun j hj => ?_
  rw [decide_eq_true_eq]
  constructor
  · intro hsome
    by_contra hle
    rw [h.free j (List.mem_range.1 hj) (by omega)] at hsome
    cases hsome
  · intro hlt
    obtain ⟨i, k, -, -, hk, -⟩ := h.of_lt (List.mem_range.1 hj) hlt
    rw [hk, Option.isSome_some]

end RoundRobin
