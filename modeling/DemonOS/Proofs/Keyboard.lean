import DemonOS.Keyboard

/-!
# The modifiers of the key events

A stroke presses or releases a key, and comes as one or two bytes. Each stroke publishes one event
and sets the flag of its own kind of modifier to whether the key went down
(`interruptKeyboardHandler_stroke`). So the flags say which kinds are held, until a key is released
while the other one of its kind stays down: the events of a run have the right modifiers just where
that never happens (`modifiers_right_iff`), and after two Shift keys it does (`shift_lost`).
-/

namespace DemonOS

/-! ## Keys and strokes -/

inductive Modifier where
  | shift | ctrl | alt | super
  deriving DecidableEq

instance : Fintype Modifier := ⟨{.shift, .ctrl, .alt, .super}, fun m => by cases m <;> decide⟩

def Modifier.bit : Modifier → UInt32
  | .shift => inputModShift
  | .ctrl => inputModCtrl
  | .alt => inputModAlt
  | .super => inputModSuper

@[ext] structure Key where
  prefixed : Bool
  code : UInt8
  deriving DecidableEq

def Modifier.keys : Modifier → List Key
  | .shift => [⟨false, 0x2A⟩, ⟨false, 0x36⟩]
  | .ctrl => [⟨false, 0x1D⟩, ⟨true, 0x1D⟩]
  | .alt => [⟨false, 0x38⟩, ⟨true, 0x38⟩]
  | .super => [⟨true, 0x5B⟩, ⟨true, 0x5C⟩]

structure Stroke where
  key : Key
  released : Bool
  short : key.code < 0x80
  code : key.code ≠ 0x60

namespace Stroke

def scan (s : Stroke) : UInt8 := if s.released then s.key.code ||| 0x80 else s.key.code

def bytes (s : Stroke) : List UInt8 := if s.key.prefixed then [0xE0, s.scan] else [s.scan]

def held (s : Stroke) (down : Finset Key) : Finset Key :=
  if s.released then down.erase s.key else insert s.key down

end Stroke

structure Interrupt where
  ticks : UInt64
  status : UInt8
  scan : UInt8

def Interrupt.full (i : Interrupt) : Bool := i.status &&& 0x01 ≠ 0

namespace Keyboard

def run (k : Keyboard) : List Interrupt → Keyboard × List InputEvent
  | [] => (k, [])
  | i :: is =>
    let r := k.interruptKeyboardHandler i.ticks i.status i.scan
    ((run r.1 is).1, r.2.toList ++ (run r.1 is).2)

def flag (k : Keyboard) : Modifier → Bool
  | .shift => k.shift
  | .ctrl => k.ctrl
  | .alt => k.alt
  | .super => k.super

end Keyboard

def Modifier.Down (m : Modifier) (down : Finset Key) : Prop := ∃ key ∈ m.keys, key ∈ down

instance (m : Modifier) (down : Finset Key) : Decidable (m.Down down) :=
  inferInstanceAs (Decidable (∃ key ∈ m.keys, key ∈ down))

def Right (event : InputEvent) (down : Finset Key) : Prop :=
  ∀ m : Modifier, event.modifiers &&& m.bit ≠ 0 ↔ m.Down down

instance (event : InputEvent) (down : Finset Key) : Decidable (Right event down) :=
  inferInstanceAs (Decidable (∀ m : Modifier, event.modifiers &&& m.bit ≠ 0 ↔ m.Down down))

def moments (down : Finset Key) : List Stroke → List (Finset Key)
  | [] => []
  | s :: ss => s.held down :: moments (s.held down) ss

def Stroke.Overlaps (s : Stroke) (down : Finset Key) : Prop :=
  s.released = true ∧ ∃ m : Modifier, s.key ∈ m.keys ∧ m.Down (down.erase s.key)

instance (s : Stroke) (down : Finset Key) : Decidable (s.Overlaps down) :=
  inferInstanceAs (Decidable
    (s.released = true ∧ ∃ m : Modifier, s.key ∈ m.keys ∧ m.Down (down.erase s.key)))

def Apart (down : Finset Key) : List Stroke → Prop
  | [] => True
  | s :: ss => ¬s.Overlaps down ∧ Apart (s.held down) ss

instance decidableApart : ∀ (down : Finset Key) (strokes : List Stroke),
    Decidable (Apart down strokes)
  | _, [] => isTrue trivial
  | down, s :: ss => @instDecidableAnd _ _ inferInstance (decidableApart (s.held down) ss)

/-! ## One stroke -/

theorem scan_bits : ∀ n < 128,
    (UInt8.ofNat n ||| 0x80) &&& 0x7F = UInt8.ofNat n ∧ (UInt8.ofNat n ||| 0x80) &&& 0x80 ≠ 0
      ∧ UInt8.ofNat n &&& 0x7F = UInt8.ofNat n ∧ UInt8.ofNat n &&& 0x80 = 0
      ∧ UInt8.ofNat n ≠ 0xE0 ∧ (n ≠ 0x60 → UInt8.ofNat n ||| 0x80 ≠ 0xE0) := by
  decide +kernel

namespace Stroke

variable (s : Stroke)

theorem scan_code : s.scan &&& 0x7F = s.key.code := by
  have h := scan_bits s.key.code.toNat s.short
  rw [UInt8.ofNat_toNat] at h
  unfold scan
  split_ifs
  · exact h.1
  · exact h.2.2.1

theorem scan_released : decide (s.scan &&& 0x80 ≠ 0) = s.released := by
  have h := scan_bits s.key.code.toNat s.short
  rw [UInt8.ofNat_toNat] at h
  unfold scan
  split_ifs with hreleased
  · rw [hreleased]
    exact decide_eq_true h.2.1
  · rw [Bool.eq_false_of_not_eq_true hreleased]
    exact decide_eq_false (not_not.2 h.2.2.2.1)

theorem scan_plain : s.scan ≠ 0xE0 := by
  have h := scan_bits s.key.code.toNat s.short
  rw [UInt8.ofNat_toNat] at h
  unfold scan
  split_ifs
  · exact h.2.2.2.2.2 fun hcode => s.code (UInt8.toNat_inj.1 hcode)
  · exact h.2.2.2.2.1

end Stroke

namespace Keyboard

variable {k k' : Keyboard} {s : Stroke} {is : List Interrupt}

theorem modifiers_bit (k : Keyboard) (m : Modifier) :
    k.modifiers &&& m.bit ≠ 0 ↔ k.flag m = true := by
  have hbits : ∀ shift capsLock alt super ctrl : Bool, ∀ n : UInt32,
      n = (if shift then inputModShift else 0) ||| (if capsLock then inputModCapsLock else 0)
        ||| (if alt then inputModAlt else 0) ||| (if super then inputModSuper else 0)
        ||| (if ctrl then inputModCtrl else 0) →
      (n &&& inputModShift ≠ 0 ↔ shift = true) ∧ (n &&& inputModCtrl ≠ 0 ↔ ctrl = true)
        ∧ (n &&& inputModAlt ≠ 0 ↔ alt = true) ∧ (n &&& inputModSuper ≠ 0 ↔ super = true) := by
    rintro shift capsLock alt super ctrl n rfl
    revert shift capsLock alt super ctrl
    decide
  obtain ⟨hshift, hctrl, halt, hsuper⟩ := hbits k.shift k.capsLock k.alt k.super k.ctrl _ rfl
  cases m
  · exact hshift
  · exact hctrl
  · exact halt
  · exact hsuper

@[simp] theorem queueChar_flag (k : Keyboard) (c : UInt8) (m : Modifier) :
    (k.queueChar c).flag m = k.flag m := by
  unfold queueChar
  dsimp only
  split_ifs
  · rfl
  · cases m <;> rfl

@[simp] theorem queueChar_extended (k : Keyboard) (c : UInt8) :
    (k.queueChar c).extended = k.extended := by
  unfold queueChar
  dsimp only
  split_ifs <;> rfl

@[simp] theorem queueExtended_flag (k : Keyboard) (released : Bool) (code : UInt8) (m : Modifier) :
    (k.queueExtended released code).flag m = k.flag m := by
  unfold queueExtended
  rcases released <;> rcases extendedCharacter code <;> simp

@[simp] theorem queueExtended_extended (k : Keyboard) (released : Bool) (code : UInt8) :
    (k.queueExtended released code).extended = k.extended := by
  unfold queueExtended
  rcases released <;> rcases extendedCharacter code <;> simp

@[simp] theorem queueChar_modifiers (k : Keyboard) (c : UInt8) :
    (k.queueChar c).modifiers = k.modifiers := by
  unfold queueChar
  dsimp only
  split_ifs <;> rfl

/-- The stroke sets the flags of its key, and publishes an event that shows all of them. -/
structure Takes (k : Keyboard) (s : Stroke) (k' : Keyboard) (event : InputEvent) : Prop where
  extended : k'.extended = false
  flag : ∀ m : Modifier, k'.flag m = if s.key ∈ m.keys then !s.released else k.flag m
  event : ∀ m : Modifier, event.modifiers &&& m.bit ≠ 0 ↔ k'.flag m = true

theorem Takes.of_flag {event : InputEvent} (hevent : event.modifiers = k'.modifiers)
    (hextended : k'.extended = false)
    (hflag : ∀ m : Modifier, k'.flag m = if s.key ∈ m.keys then !s.released else k.flag m) :
    k.Takes s k' event where
  extended := hextended
  flag := hflag
  event m := by
    rw [hevent]
    exact modifiers_bit k' m

theorem extendedKey_takes (ticks : UInt64) (hprefixed : s.key.prefixed = true) :
    k.Takes s (k.extendedKey ticks s.scan).1 (k.extendedKey ticks s.scan).2 := by
  unfold extendedKey
  dsimp only
  rw [s.scan_released, s.scan_code]
  refine Takes.of_flag rfl (by simp) fun m => ?_
  rw [queueExtended_flag]
  cases m <;> simp [flag, Modifier.keys, Key.ext_iff, hprefixed]

theorem plainKey_takes (ticks : UInt64) (hextended : k.extended = false)
    (hplain : s.key.prefixed = false) :
    k.Takes s (k.plainKey ticks s.scan).1 (k.plainKey ticks s.scan).2 := by
  unfold plainKey
  dsimp only
  rw [s.scan_released, s.scan_code]
  split_ifs with hshift halt hctrl hcaps hcharacter
  · refine Takes.of_flag rfl hextended fun m => ?_
    rcases hshift with hcode | hcode <;> cases m <;>
      simp [flag, Modifier.keys, Key.ext_iff, hplain, hcode]
  all_goals
    refine Takes.of_flag (by simp [publishKey]) (by simpa using hextended) fun m => ?_
    simp only [queueChar_flag]
    cases m <;> simp_all [flag, Modifier.keys, Key.ext_iff]

/-! ## Runs -/

theorem run_append (k : Keyboard) : ∀ is js : List Interrupt,
    k.run (is ++ js) = (((k.run is).1.run js).1, (k.run is).2 ++ ((k.run is).1.run js).2)
  | [], js => rfl
  | i :: is, js => by
    rw [List.cons_append, run, run, run_append _ is js, List.append_assoc]

theorem interruptKeyboardHandler_empty {i : Interrupt} (h : i.full = false) :
    k.interruptKeyboardHandler i.ticks i.status i.scan = (k, none) :=
  if_pos (by simpa [Interrupt.full] using h)

theorem run_filter (k : Keyboard) : ∀ is : List Interrupt,
    k.run (is.filter Interrupt.full) = k.run is
  | [] => rfl
  | i :: is => by
    rcases hfull : i.full with _ | _
    · rw [List.filter_cons_of_neg (by rw [hfull]; decide), run_filter k is, run,
        interruptKeyboardHandler_empty hfull]
      rfl
    · rw [List.filter_cons_of_pos hfull, run, run, run_filter _ is]

/-- The bytes of a stroke: one event, and the flags of its key set. -/
theorem interruptKeyboardHandler_stroke (hextended : k.extended = false)
    (hfull : ∀ i ∈ is, i.full = true) (hscan : is.map Interrupt.scan = s.bytes) :
    ∃ k' event, k.run is = (k', [event]) ∧ k.Takes s k' event := by
  have hstatus : ∀ i ∈ is, i.status &&& 0x01 ≠ 0 := fun i hi => by
    simpa [Interrupt.full] using hfull i hi
  unfold Stroke.bytes at hscan
  split_ifs at hscan with hprefixed
  · obtain ⟨first, is, rfl, hfirst, hrest⟩ := List.map_eq_cons_iff.1 hscan
    obtain ⟨last, is, rfl, hlast, hnone⟩ := List.map_eq_cons_iff.1 hrest
    obtain rfl := List.map_eq_nil_iff.1 hnone
    have hopen : k.interruptKeyboardHandler first.ticks first.status first.scan
        = ({ k with extended := true }, none) := by
      unfold interruptKeyboardHandler
      rw [if_neg (hstatus first (by simp)), if_pos hfirst]
    have htakes : Takes { k with extended := true } s _ _ :=
      extendedKey_takes last.ticks hprefixed
    refine ⟨_, _, ?_, htakes.extended, fun m => ?_, htakes.event⟩
    · rw [run, run, run, hopen]
      unfold interruptKeyboardHandler
      rw [if_neg (hstatus last (by simp)), hlast, if_neg s.scan_plain, if_pos rfl]
      rfl
    · rw [htakes.flag]
      cases m <;> rfl
  · obtain ⟨only, is, rfl, honly, hnone⟩ := List.map_eq_cons_iff.1 hscan
    obtain rfl := List.map_eq_nil_iff.1 hnone
    refine ⟨_, _, ?_, plainKey_takes only.ticks hextended (Bool.eq_false_of_not_eq_true hprefixed)⟩
    rw [run, run]
    unfold interruptKeyboardHandler
    rw [if_neg (hstatus only (by simp)), honly, if_neg s.scan_plain,
      if_neg (by rw [hextended]; decide)]
    rfl

end Keyboard

def Keyboard.Knows (k : Keyboard) (down : Finset Key) : Prop :=
  ∀ m : Modifier, k.flag m = true ↔ m.Down down

section

variable {k k' : Keyboard} {s : Stroke} {event : InputEvent} {down : Finset Key} {m : Modifier}

theorem down_erase (h : s.key ∉ m.keys) : m.Down (down.erase s.key) ↔ m.Down down := by
  constructor
  · rintro ⟨key, hkey, hdown⟩
    exact ⟨key, hkey, Finset.mem_of_mem_erase hdown⟩
  · rintro ⟨key, hkey, hdown⟩
    exact ⟨key, hkey, Finset.mem_erase.2 ⟨fun heq => h (heq ▸ hkey), hdown⟩⟩

theorem down_insert : m.Down (insert s.key down) ↔ s.key ∈ m.keys ∨ m.Down down := by
  constructor
  · rintro ⟨key, hkey, hdown⟩
    rcases Finset.mem_insert.1 hdown with rfl | hdown
    · exact .inl hkey
    · exact .inr ⟨key, hkey, hdown⟩
  · rintro (hkey | ⟨key, hkey, hdown⟩)
    · exact ⟨s.key, hkey, Finset.mem_insert_self _ _⟩
    · exact ⟨key, hkey, Finset.mem_insert_of_mem hdown⟩

theorem Keyboard.Takes.knows (h : k.Takes s k' event) (hknows : k.Knows down)
    (hapart : ¬s.Overlaps down) : k'.Knows (s.held down) := by
  intro m
  rw [h.flag]
  unfold Stroke.held
  rcases hreleased : s.released with _ | _
  · rw [if_neg Bool.false_ne_true, down_insert]
    split_ifs with hkey
    · simp [hkey]
    · simp [hkey, hknows m]
  · rw [if_pos rfl]
    split_ifs with hkey
    · exact ⟨fun h => absurd h Bool.false_ne_true,
        fun hdown => absurd ⟨hreleased, m, hkey, hdown⟩ hapart⟩
    · rw [hknows m, down_erase hkey]

theorem Keyboard.Takes.right_iff (h : k.Takes s k' event) (hknows : k.Knows down) :
    Right event (s.held down) ↔ ¬s.Overlaps down := by
  constructor
  · rintro hright ⟨hreleased, m, hkey, hdown⟩
    have hheld : s.held down = down.erase s.key := if_pos hreleased
    have hflag := (h.event m).1 ((hright m).2 (hheld ▸ hdown))
    rw [h.flag, if_pos hkey, hreleased] at hflag
    exact Bool.false_ne_true hflag
  · intro hapart m
    rw [h.event m]
    exact h.knows hknows hapart m

end

theorem right_iff_apart : ∀ (strokes : List Stroke) {k : Keyboard} {down : Finset Key}
    {is : List Interrupt}, k.extended = false → k.Knows down → (∀ i ∈ is, i.full = true) →
    is.map Interrupt.scan = strokes.flatMap Stroke.bytes →
      (List.Forall₂ Right (k.run is).2 (moments down strokes) ↔ Apart down strokes)
  | [], k, down, is, _, _, _, hscan => by
    obtain rfl := List.map_eq_nil_iff.1 hscan
    exact iff_of_true .nil trivial
  | s :: ss, k, down, is, hextended, hknows, hfull, hscan => by
    obtain ⟨now, later, rfl, hnow, hlater⟩ := List.map_eq_append_iff.1 hscan
    obtain ⟨k', event, hrun, htakes⟩ := k.interruptKeyboardHandler_stroke hextended
      (fun i hi => hfull i (List.mem_append_left _ hi)) hnow
    rw [Keyboard.run_append, hrun]
    unfold moments Apart
    dsimp only
    rw [List.singleton_append, List.forall₂_cons, htakes.right_iff hknows]
    refine and_congr_right fun hapart => ?_
    exact right_iff_apart ss htakes.extended (htakes.knows hknows hapart)
      (fun i hi => hfull i (List.mem_append_right _ hi)) hlater

/-- Along any interrupts that bring the bytes of some strokes, each published event has the
modifiers that are down just where no modifier is let go while the other key of its kind is down. -/
theorem modifiers_right_iff (is : List Interrupt) (strokes : List Stroke)
    (hscan : (is.filter Interrupt.full).map Interrupt.scan = strokes.flatMap Stroke.bytes) :
    List.Forall₂ Right (Keyboard.run {} is).2 (moments ∅ strokes) ↔ Apart ∅ strokes := by
  rw [← Keyboard.run_filter]
  refine right_iff_apart strokes rfl (fun m => ?_) (fun i hi => (List.mem_filter.1 hi).2) hscan
  refine iff_of_false (by cases m <;> exact Bool.false_ne_true) ?_
  rintro ⟨key, -, hdown⟩
  exact absurd hdown (Finset.notMem_empty key)

/-! ## Two Shift keys -/

def stroke (code : UInt8) (released : Bool) (short : code < 0x80) (plain : code ≠ 0x60) : Stroke :=
  ⟨⟨false, code⟩, released, short, plain⟩

def shiftedLetter : List Stroke :=
  [stroke 0x2A false (by decide) (by decide), stroke 0x1E false (by decide) (by decide),
    stroke 0x1E true (by decide) (by decide), stroke 0x2A true (by decide) (by decide)]

def twoShifts : List Stroke :=
  [stroke 0x2A false (by decide) (by decide), stroke 0x36 false (by decide) (by decide),
    stroke 0x2A true (by decide) (by decide), stroke 0x1E false (by decide) (by decide)]

def arrivals (strokes : List Stroke) : List Interrupt :=
  (strokes.flatMap Stroke.bytes).map fun scan => ⟨0, 0x01, scan⟩

theorem shifted_letter_right :
    List.Forall₂ Right (Keyboard.run {} (arrivals shiftedLetter)).2 (moments ∅ shiftedLetter) :=
  (modifiers_right_iff _ _ (by decide +kernel)).2 (by decide +kernel)

theorem shift_lost : ¬∀ (is : List Interrupt) (strokes : List Stroke),
    (is.filter Interrupt.full).map Interrupt.scan = strokes.flatMap Stroke.bytes →
      List.Forall₂ Right (Keyboard.run {} is).2 (moments ∅ strokes) := fun h =>
  absurd (h (arrivals twoShifts) twoShifts (by decide +kernel)) (by decide +kernel)

end DemonOS
