import DemonOS.Xterm.Editor

/-!
# Strings in rows of bytes

A row holds a string where the string's bytes come first, none of them NUL, and a NUL behind them
(`Holds`). `copyString`, the two shifting loops of the editor and a NUL written into a row are told
by the strings held before and after. A row whose last byte is NUL holds a string whatever its other
bytes are (`Closed.holds`).
-/

namespace DemonOS.Xterm

variable {col : ℕ} {line : ℕ → UInt8} {text : List UInt8}

/-- The row's bytes are `text` and a NUL. -/
structure Holds (line : ℕ → UInt8) (text : List UInt8) : Prop where
  short : text.length < lineCapacity
  byte : ∀ i (h : i < text.length), line i = text[i]
  nonzero : ∀ c ∈ text, c ≠ 0
  ended : line text.length = 0

def Closed (line : ℕ → UInt8) : Prop := line (lineCapacity - 1) = 0

theorem stringLength_eq {n : ℕ} (hn : n < lineCapacity) (h0 : line n = 0)
    (h : ∀ i < n, line i ≠ 0) : stringLength line = n := by
  obtain ⟨k, hk⟩ := Nat.exists_eq_add_of_lt hn
  have hr : List.range lineCapacity = List.range n ++ n :: (List.range k).map (n + 1 + ·) := by
    rw [hk, show n + k + 1 = n + 1 + k by omega, List.range_add, List.range_succ]
    simp
  rw [stringLength, hr, List.takeWhile_append_of_pos (by simpa using h)]
  simp [h0]

theorem le_stringLength {n : ℕ} (hn : n ≤ lineCapacity)
    (h : ∀ i < n, line i ≠ 0) : n ≤ stringLength line := by
  obtain ⟨k, hk⟩ := Nat.exists_eq_add_of_le hn
  rw [stringLength, hk, List.range_add, List.takeWhile_append_of_pos (by simpa using h)]
  simp

@[simp] theorem length_string (line : ℕ → UInt8) : (string line).length = stringLength line := by
  simp [string]

theorem Holds.string_eq (h : Holds line text) :
    string line = text := by
  have hl : stringLength line = text.length := by
    refine stringLength_eq h.short h.ended fun i hi => ?_
    rw [h.byte i hi]
    exact h.nonzero _ (List.getElem_mem hi)
  refine List.ext_getElem (by simp [hl]) fun i hi hi' => ?_
  simp [string, h.byte i hi']

theorem Closed.exists_zero (h : Closed line) :
    ∃ n < lineCapacity, line n = 0 ∧ ∀ i < n, line i ≠ 0 := by
  have hex : ∃ n, line n = 0 := ⟨_, h⟩
  refine ⟨Nat.find hex, ?_, Nat.find_spec hex, fun i hi => Nat.find_min hex hi⟩
  have : Nat.find hex ≤ lineCapacity - 1 := Nat.find_min' hex h
  unfold lineCapacity at this ⊢
  omega

theorem Closed.holds (h : Closed line) : Holds line (string line) := by
  obtain ⟨n, hn, h0, hne⟩ := h.exists_zero
  have hl := stringLength_eq hn h0 hne
  refine ⟨by simpa [hl] using hn, fun i _ => by simp [string], fun c hc => ?_, by simpa [hl]⟩
  simp only [string, hl, List.mem_map, List.mem_range] at hc
  obtain ⟨i, hi, rfl⟩ := hc
  exact hne i hi

theorem Closed.length_lt (h : Closed line) :
    (string line).length < lineCapacity := h.holds.short

theorem Closed.length_le (h : Closed line) :
    (string line).length ≤ lineCapacity - 1 := Nat.le_sub_one_of_lt h.length_lt

theorem Closed.update (h : Closed line) {i : ℕ} {c : UInt8}
    (hi : i < lineCapacity - 1 ∨ c = 0) : Closed (Function.update line i c) := by
  unfold Closed
  rcases eq_or_ne (lineCapacity - 1) i with he | he
  · have hc : c = 0 := hi.resolve_left (by omega)
    rw [← he, Function.update_self, hc]
  · rw [Function.update_of_ne he]
    exact h

/-! ## Copies -/

theorem Closed.copyString (h : Closed line) {start : ℕ} {source : List UInt8}
    (hs : start + source.length < lineCapacity) : Closed (copyString line start source) := by
  unfold Closed Xterm.copyString
  unfold lineCapacity at hs ⊢
  split_ifs
  · omega
  · rfl
  · exact h

theorem Holds.copyString {text source : List UInt8} (h : Holds line text)
    (hsource : ∀ c ∈ source, c ≠ 0) (hs : text.length + source.length < lineCapacity) :
    Holds (copyString line text.length source) (text ++ source) := by
  refine ⟨by simpa using hs, fun i hi => ?_, fun c hc => ?_, ?_⟩
  · rw [List.length_append] at hi
    unfold Xterm.copyString
    rcases lt_or_ge i text.length with hlt | hge
    · rw [if_neg (by omega), if_neg (by omega), List.getElem_append_left hlt, h.byte i hlt]
    · rw [if_pos ⟨hge, hi⟩, List.getElem_append_right hge, List.getD_eq_getElem?_getD,
        List.getElem?_eq_getElem (by omega), Option.getD_some]
  · rcases List.mem_append.1 hc with hc | hc
    · exact h.nonzero c hc
    · exact hsource c hc
  · unfold Xterm.copyString
    simp

theorem copyString_holds (line : ℕ → UInt8) {source : List UInt8} (hsource : ∀ c ∈ source, c ≠ 0)
    (hs : source.length < lineCapacity) : Holds (copyString line 0 source) source := by
  refine ⟨hs, fun i hi => ?_, hsource, ?_⟩
  · unfold Xterm.copyString
    rw [if_pos ⟨Nat.zero_le _, by omega⟩, Nat.sub_zero, List.getD_eq_getElem?_getD,
      List.getElem?_eq_getElem hi, Option.getD_some]
  · unfold Xterm.copyString
    simp

theorem Holds.cut (h : Holds line text)
    (hc : col ≤ text.length) : Holds (Function.update line col 0) (text.take col) := by
  have hl : (text.take col).length = col := List.length_take_of_le hc
  refine ⟨by rw [hl]; exact lt_of_le_of_lt hc h.short, fun i hi => ?_,
    fun c hcm => h.nonzero c (List.mem_of_mem_take hcm), by rw [hl, Function.update_self]⟩
  rw [hl] at hi
  rw [Function.update_of_ne (by omega), List.getElem_take]
  exact h.byte i (by omega)

/-! ## The shifting loops -/

theorem openGap_apply (col : ℕ) : ∀ (index : ℕ) (line : ℕ → UInt8) (i : ℕ),
    openGap col index line i = if col < i ∧ i ≤ index then line (i - 1) else line i
  | 0, line, i => by
    rw [openGap, if_neg (by omega)]
  | index + 1, line, i => by
    rw [openGap]
    split_ifs with h hi hi
    · rw [openGap_apply col index]
      rcases eq_or_ne i (index + 1) with rfl | hne
      · rw [if_neg (by omega), Function.update_self]
        rfl
      · rw [if_pos (by omega), Function.update_of_ne (by omega)]
    · rw [openGap_apply col index, if_neg (by omega), Function.update_of_ne (by omega)]
    · omega
    · rfl

theorem closeGap_apply : ∀ (turns index : ℕ) (line : ℕ → UInt8) (i : ℕ),
    closeGap turns index line i
      = if index ≤ i ∧ i < index + turns then line (i + 1) else line i
  | 0, index, line, i => by
    rw [closeGap, if_neg (by omega)]
  | turns + 1, index, line, i => by
    rw [closeGap, closeGap_apply turns (index + 1)]
    rcases eq_or_ne i index with rfl | hne
    · rw [if_neg (by omega), if_pos (by omega), Function.update_self]
    · split_ifs with h h' h'
      · rw [Function.update_of_ne (by omega)]
      · omega
      · omega
      · rw [Function.update_of_ne hne]

theorem Closed.closeGap (h : Closed line) {turns index : ℕ}
    (hi : index + turns < lineCapacity) : Closed (closeGap turns index line) := by
  unfold Closed
  rw [closeGap_apply, if_neg (by omega)]
  exact h

theorem Closed.insert (h : Closed line) {col index : ℕ} (c : UInt8)
    (hi : index < lineCapacity - 1) (hc : col ≤ index) :
    Closed (Function.update (openGap col index line) col c) := by
  unfold Closed
  rw [Function.update_of_ne (by omega), openGap_apply, if_neg (by omega)]
  exact h

theorem Holds.closeGap (h : Holds line text)
    (hc : col < text.length) :
    Holds (closeGap (text.length - col) col line) (text.take col ++ text.drop (col + 1)) := by
  have hs := h.short
  refine ⟨by simp; omega, fun i hi => ?_, fun c hcm => ?_, ?_⟩
  · simp only [List.length_append, List.length_take, List.length_drop] at hi
    rw [closeGap_apply]
    rcases lt_or_ge i col with hlt | hge
    · rw [if_neg (by omega), List.getElem_append_left (by simp; omega), List.getElem_take]
      exact h.byte i (by omega)
    · rw [if_pos (by omega), List.getElem_append_right (by simp; omega), List.getElem_drop,
        h.byte (i + 1) (by omega)]
      congr 1
      simp
      omega
  · rcases List.mem_append.1 hcm with hcm | hcm
    · exact h.nonzero c (List.mem_of_mem_take hcm)
    · exact h.nonzero c (List.mem_of_mem_drop hcm)
  · have hl : (text.take col ++ text.drop (col + 1)).length = text.length - 1 := by simp; omega
    rw [hl, closeGap_apply, if_pos (by omega), show text.length - 1 + 1 = text.length by omega]
    exact h.ended

/-- The string with `c` typed at `col`: the loop leaves the byte behind the old end as it is, so a
NUL has to stand there already. -/
theorem Holds.insert (h : Holds line text)
    (hc : col ≤ text.length) (hs : text.length < lineCapacity - 1) {c : UInt8} (hne : c ≠ 0)
    (hz : line (text.length + 1) = 0) :
    Holds (Function.update (openGap col text.length line) col c)
      (text.take col ++ c :: text.drop col) := by
  have hl : (text.take col ++ c :: text.drop col).length = text.length + 1 := by simp; omega
  refine ⟨by omega, fun i hi => ?_, fun d hd => ?_, ?_⟩
  · rcases lt_trichotomy i col with hlt | rfl | hgt
    · rw [Function.update_of_ne (by omega), openGap_apply, if_neg (by omega),
        List.getElem_append_left (by simp; omega), List.getElem_take]
      exact h.byte i (by omega)
    · rw [Function.update_self, List.getElem_append_right (by simp)]
      simp [hc]
    · rw [Function.update_of_ne (by omega), openGap_apply, if_pos (by omega),
        List.getElem_append_right (by simp; omega), List.getElem_cons, dif_neg (by simp; omega),
        List.getElem_drop, h.byte (i - 1) (by omega)]
      congr 1
      simp
      omega
  · rcases List.mem_append.1 hd with hd | hd
    · exact h.nonzero d (List.mem_of_mem_take hd)
    · rcases List.mem_cons.1 hd with rfl | hd
      · exact hne
      · exact h.nonzero d (List.mem_of_mem_drop hd)
  · rw [hl, Function.update_of_ne (by omega), openGap_apply, if_neg (by omega)]
    exact hz

section Typed

variable {line : ℕ → UInt8} {text : List UInt8} {col : ℕ} {c : UInt8}

theorem Holds.insert_byte (h : Holds line text) (hc : col ≤ text.length) (hne : c ≠ 0) {i : ℕ}
    (hi : i ≤ text.length) : Function.update (openGap col text.length line) col c i ≠ 0 := by
  rcases eq_or_ne i col with rfl | hic
  · rw [Function.update_self]
    exact hne
  · rw [Function.update_of_ne hic, openGap_apply]
    split_ifs with hg
    · rw [h.byte (i - 1) (by omega)]
      exact h.nonzero _ (List.getElem_mem _)
    · rw [h.byte i (by omega)]
      exact h.nonzero _ (List.getElem_mem _)

theorem Holds.insert_length (h : Holds line text) (hc : col ≤ text.length)
    (hs : text.length < lineCapacity - 1) (hne : c ≠ 0) :
    text.length + 1
      ≤ (string (Function.update (openGap col text.length line) col c)).length := by
  rw [length_string]
  exact le_stringLength (by omega) fun i hi => h.insert_byte hc hne (by omega)

theorem Holds.insert_long (h : Holds line text) (hc : col ≤ text.length)
    (hs : text.length < lineCapacity - 1) (hne : c ≠ 0) (hz : line (text.length + 1) ≠ 0) :
    text.length + 2
      ≤ (string (Function.update (openGap col text.length line) col c)).length := by
  rw [length_string]
  refine le_stringLength (by omega) fun i hi => ?_
  rcases Nat.lt_or_ge i (text.length + 1) with hlt | hge
  · exact h.insert_byte hc hne (by omega)
  · rw [show i = text.length + 1 by omega, Function.update_of_ne (by omega), openGap_apply,
      if_neg (by omega)]
    exact hz

end Typed

end DemonOS.Xterm
