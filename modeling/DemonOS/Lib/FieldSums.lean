import DemonOS.Lib.LittleEndian

/-!
# Additions to fields

A number is added to fields of a byte memory, one after the other and each modulo its width. Bytes
below the lowest digit of the number that is not zero keep what they are (`add_low`), so of fields
that are named once each the lowest one always ends up different (`addAll_ne`).
-/

namespace LittleEndian

/-- The memory with `d` added to the `n`-byte field at `a`. -/
def add (m : ℕ → UInt8) (n d a : ℕ) : ℕ → UInt8 := store m a n (load m a n + d)

/-- The memory with `d` added to the `n`-byte fields at these addresses. -/
def addAll (m : ℕ → UInt8) (n d : ℕ) (fields : List ℕ) : ℕ → UInt8 :=
  fields.foldl (fun m a => add m n d a) m

variable {m : ℕ → UInt8} {n d a b j k : ℕ}

@[simp] theorem addAll_nil : addAll m n d [] = m := rfl

@[simp] theorem addAll_cons {fields : List ℕ} :
    addAll m n d (a :: fields) = addAll (add m n d a) n d fields := rfl

theorem addAll_append {fields more : List ℕ} :
    addAll m n d (fields ++ more) = addAll (addAll m n d fields) n d more := List.foldl_append

/-- A field is its low bytes and, above them, the field of the others. -/
theorem load_add (m : ℕ → UInt8) : ∀ (k j a : ℕ),
    load m a (k + j) = load m a k + 256 ^ k * load m (a + k) j
  | 0, j, a => by simp [load]
  | k + 1, j, a => by
    rw [Nat.succ_add, load, load, load_add m k j (a + 1), pow_succ']
    have hplace : a + 1 + k = a + (k + 1) := by omega
    rw [hplace]
    ring

theorem load_mod (m : ℕ → UInt8) (a : ℕ) (h : k ≤ n) : load m a n % 256 ^ k = load m a k := by
  obtain ⟨j, rfl⟩ := Nat.exists_eq_add_of_le h
  rw [load_add, Nat.add_mul_mod_self_left, Nat.mod_eq_of_lt (load_lt m k a)]

theorem load_digit (m : ℕ → UInt8) (a : ℕ) (h : k < n) :
    load m a n / 256 ^ k % 256 = (m (a + k)).toNat := by
  obtain ⟨j, rfl⟩ := Nat.exists_eq_add_of_lt h
  have hbyte := (m (a + k)).toNat_lt
  rw [Nat.add_assoc, load_add, Nat.add_mul_div_left _ _ (Nat.pow_pos (by decide)),
    Nat.div_eq_of_lt (load_lt m k a), Nat.zero_add, load, Nat.add_mul_mod_self_left]
  exact Nat.mod_eq_of_lt (by omega)

theorem store_mod (m : ℕ → UInt8) (a n v : ℕ) : store m a n (v % 256 ^ n) = store m a n v := by
  funext b
  unfold store
  by_cases hin : a ≤ b ∧ b < a + n
  · rw [if_pos hin, if_pos hin]
    obtain ⟨j, hj⟩ := Nat.exists_eq_add_of_lt (by omega : b - a < n)
    have hpow : 256 ^ n = 256 ^ (b - a) * 256 ^ (j + 1) := by
      rw [← pow_add]
      congr 1
    have hdigit : v % 256 ^ n / 256 ^ (b - a) % 256 = v / 256 ^ (b - a) % 256 := by
      rw [hpow, Nat.mod_mul_right_div_self]
      exact Nat.mod_mod_of_dvd _ (dvd_pow_self 256 (Nat.succ_ne_zero j))
    rw [← UInt8.toNat_inj]
    simpa using hdigit
  · rw [if_neg hin, if_neg hin]

/-- An addition leaves what is below the lowest digit of the number. -/
theorem add_low (h : 256 ^ j ∣ d) (hb : b < a + j) : add m n d a b = m b := by
  unfold add store
  by_cases hin : a ≤ b ∧ b < a + n
  · rw [if_pos hin]
    obtain ⟨k, rfl⟩ := Nat.exists_eq_add_of_le hin.1
    obtain ⟨c, rfl⟩ := h
    obtain ⟨i, rfl⟩ := Nat.exists_eq_add_of_lt (by omega : k < j)
    have hdigit := load_digit m a (by omega : k < n)
    have hsum : 256 ^ (k + i + 1) * c = 256 ^ k * (256 * (256 ^ i * c)) := by ring
    rw [← UInt8.toNat_inj, Nat.add_sub_cancel_left, hsum, Nat.add_mul_div_left _ _ (Nat.pow_pos (by decide))]
    simpa using hdigit
  · rw [if_neg hin]

theorem add_of_dvd (h : 256 ^ n ∣ d) : add m n d a = m := by
  funext b
  rcases Nat.lt_or_ge b (a + n) with hb | hb
  · exact add_low h hb
  · exact store_apply_of_disjoint m _ (.inr hb)

theorem addAll_of_dvd (h : 256 ^ n ∣ d) : ∀ fields : List ℕ, addAll m n d fields = m
  | [] => rfl
  | a :: fields => by rw [addAll_cons, add_of_dvd h, addAll_of_dvd h fields]

theorem addAll_apply_of_disjoint : ∀ {fields : List ℕ} {m : ℕ → UInt8},
    (∀ a ∈ fields, b < a ∨ a + n ≤ b) → addAll m n d fields b = m b
  | [], _, _ => rfl
  | a :: fields, m, h => by
    rw [addAll_cons, addAll_apply_of_disjoint fun a ha => h a (List.mem_cons_of_mem _ ha)]
    exact store_apply_of_disjoint m _ (h a List.mem_cons_self)

/-- Additions to higher fields leave the low end of a field alone. -/
theorem load_addAll_low (h : 256 ^ j ∣ d) : ∀ {fields : List ℕ} {m : ℕ → UInt8},
    (∀ b ∈ fields, a < b) → load (addAll m n d fields) a (j + 1) = load m a (j + 1)
  | [], _, _ => rfl
  | b :: fields, m, hfields => by
    have hb := hfields b List.mem_cons_self
    rw [addAll_cons, load_addAll_low h fun b hb => hfields b (List.mem_cons_of_mem _ hb)]
    exact load_congr fun c _ hc => add_low h (by omega)

theorem load_add_field (m : ℕ → UInt8) (a : ℕ) (h : k ≤ n) :
    load (add m n d a) a k = (load m a k + d) % 256 ^ k := by
  rw [← load_mod _ _ h, add, load_store, Nat.mod_mod_of_dvd _ (pow_dvd_pow 256 h), Nat.add_mod,
    load_mod _ _ h, ← Nat.add_mod_mod]
  simp

theorem addAll_ne {fields : List ℕ} (hd : ¬256 ^ n ∣ d) (hfields : fields ≠ [])
    (hnodup : fields.Nodup) : addAll m n d fields ≠ m := by
  have hmem : ∃ a, a ∈ fields := List.exists_mem_of_ne_nil fields hfields
  have hdigit : ∃ j, ¬256 ^ j ∣ d := ⟨n, hd⟩
  classical
  obtain ⟨j, hj⟩ : ∃ j, Nat.find hdigit = j + 1 := by
    refine Nat.exists_eq_succ_of_ne_zero fun h => ?_
    have hnot := Nat.find_spec hdigit
    rw [h] at hnot
    simp at hnot
  have hlow : 256 ^ j ∣ d := not_not.1 (Nat.find_min hdigit (by omega : j < Nat.find hdigit))
  have hhigh : ¬256 ^ (j + 1) ∣ d := hj ▸ Nat.find_spec hdigit
  have hwidth : j + 1 ≤ n := hj ▸ Nat.find_min' hdigit hd
  obtain ⟨before, after, hsplit⟩ := List.append_of_mem (Nat.find_spec hmem)
  have hleast : ∀ b ∈ fields, Nat.find hmem ≤ b := fun b hb => Nat.find_min' hmem hb
  generalize Nat.find hmem = a at hsplit hleast
  subst hsplit
  rw [List.perm_middle.nodup_iff, List.nodup_cons, List.mem_append, not_or] at hnodup
  have habove : ∀ b, b ∈ before ∨ b ∈ after → a < b := by
    intro b hb
    refine lt_of_le_of_ne (hleast b ?_) ?_
    · rw [List.mem_append, List.mem_cons]
      exact hb.imp_right .inr
    · rintro rfl
      exact hb.elim hnodup.1.1 hnodup.1.2
  intro hsame
  have hload : load (addAll m n d (before ++ a :: after)) a (j + 1) = (load m a (j + 1) + d)
      % 256 ^ (j + 1) := by
    rw [addAll_append, addAll_cons, load_addAll_low hlow fun b hb => habove b (.inr hb),
      load_add_field _ _ hwidth, load_addAll_low hlow fun b hb => habove b (.inl hb)]
  rw [hsame] at hload
  refine hhigh ?_
  have hmod := hload.symm.trans (Nat.mod_eq_of_lt (load_lt m (j + 1) a)).symm
  exact (Nat.modEq_zero_iff_dvd.1 (Nat.ModEq.add_left_cancel' (load m a (j + 1)) (by
    rw [Nat.add_zero]
    exact hmod)))

end LittleEndian
