import DemonOS.Proofs.Network.Reads

/-!
# Fields that are written

A big-endian field that has been written reads back, and what lies beside it reads as before.
-/

namespace DemonOS

namespace Network

section

variable {m m' : ℕ → UInt8} {i j : ℕ}

@[simp] theorem writeByte_apply (m : ℕ → UInt8) (i : ℕ) (value : UInt8) (a : ℕ) :
    writeByte m i value a = if a = i then value else m a := rfl

theorem writeBe16_word (m : ℕ → UInt8) (i : ℕ) (value : UInt16) :
    256 * (writeBe16 m i value i).toNat + (writeBe16 m i value (i + 1)).toNat = value.toNat := by
  have := value.toNat_lt
  simp [writeBe16]
  omega

theorem writeBe16_of_ne (m : ℕ → UInt8) (value : UInt16) {a : ℕ} (h : a < i ∨ i + 2 ≤ a) :
    writeBe16 m i value a = m a := by
  unfold writeBe16
  rw [writeByte_apply, writeByte_apply, if_neg (by omega), if_neg (by omega)]

theorem writeBe32_of_ne (m : ℕ → UInt8) (value : UInt32) {a : ℕ} (h : a < i ∨ i + 4 ≤ a) :
    writeBe32 m i value a = m a := by
  unfold writeBe32
  rw [writeBe16_of_ne _ _ (by omega), writeBe16_of_ne _ _ (by omega)]

theorem writeMac_of_le (m : ℕ → UInt8) (mac : Mac) {a : ℕ} (h : i + 6 ≤ a) :
    writeMac m i mac a = m a := by
  have hwrites : ∀ (l : List (Fin 6)) (m : ℕ → UInt8),
      l.foldl (fun m (k : Fin 6) => writeByte m (i + k) mac[k]) m a = m a := by
    intro l
    induction l with
    | nil => exact fun _ => rfl
    | cons k l ih =>
      intro m
      rw [List.foldl_cons, ih, writeByte_apply, if_neg (by omega)]
  exact hwrites _ m

theorem be16_congr (h : ∀ k, k < 2 → m (i + k) = m' (j + k)) : be16 m i = be16 m' j := by
  unfold be16
  rw [show m i = m' j from h 0 (by omega), h 1 (by omega)]

theorem be32_congr (h : ∀ k, k < 4 → m (i + k) = m' (j + k)) : be32 m i = be32 m' j := by
  have hhigh : be16 m i = be16 m' j := be16_congr fun k hk => h k (by omega)
  have hlow : be16 m (i + 2) = be16 m' (j + 2) := be16_congr fun k hk => by
    simpa [Nat.add_assoc] using h (2 + k) (by omega)
  rw [be32, be32, hhigh, hlow]

theorem be16_writeByte_of_ne (m : ℕ → UInt8) (value : UInt8) (h : i + 2 ≤ j ∨ j < i) :
    be16 (writeByte m j value) i = be16 m i :=
  be16_congr fun k hk => by rw [writeByte_apply, if_neg (by omega)]

theorem be16_writeBe16_of_ne (m : ℕ → UInt8) (value : UInt16) (h : i + 2 ≤ j ∨ j + 2 ≤ i) :
    be16 (writeBe16 m j value) i = be16 m i :=
  be16_congr fun k hk => writeBe16_of_ne _ _ (by omega)

theorem be16_writeBe32_of_ne (m : ℕ → UInt8) (value : UInt32) (h : i + 2 ≤ j ∨ j + 4 ≤ i) :
    be16 (writeBe32 m j value) i = be16 m i :=
  be16_congr fun k hk => writeBe32_of_ne _ _ (by omega)

theorem be32_writeBe16_of_ne (m : ℕ → UInt8) (value : UInt16) (h : i + 4 ≤ j ∨ j + 2 ≤ i) :
    be32 (writeBe16 m j value) i = be32 m i :=
  be32_congr fun k hk => writeBe16_of_ne _ _ (by omega)

theorem be32_writeByte_of_ne (m : ℕ → UInt8) (value : UInt8) (h : i + 4 ≤ j ∨ j < i) :
    be32 (writeByte m j value) i = be32 m i :=
  be32_congr fun k hk => by rw [writeByte_apply, if_neg (by omega)]

theorem be32_writeBe32_of_ne (m : ℕ → UInt8) (value : UInt32) (h : i + 4 ≤ j ∨ j + 4 ≤ i) :
    be32 (writeBe32 m j value) i = be32 m i :=
  be32_congr fun k hk => writeBe32_of_ne _ _ (by omega)

theorem be16_writeBe16 (m : ℕ → UInt8) (i : ℕ) (value : UInt16) :
    be16 (writeBe16 m i value) i = value := by
  refine UInt16.toNat_inj.1 ?_
  rw [toNat_be16, writeBe16_word]

theorem be32_writeBe32 (m : ℕ → UInt8) (i : ℕ) (value : UInt32) :
    be32 (writeBe32 m i value) i = value := by
  have hhigh : be16 (writeBe32 m i value) i = UInt16.ofNat (value.toNat / 2 ^ 16) := by
    rw [← be16_writeBe16 m i (UInt16.ofNat (value.toNat / 2 ^ 16))]
    exact be16_congr fun k hk => writeBe16_of_ne _ _ (by omega)
  have hlow : be16 (writeBe32 m i value) (i + 2) = UInt16.ofNat value.toNat :=
    be16_writeBe16 _ _ _
  refine UInt32.toNat_inj.1 ?_
  have := value.toNat_lt
  rw [be32, hhigh, hlow]
  simp
  omega

end

end Network

end DemonOS
