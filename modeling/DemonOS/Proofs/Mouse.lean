import DemonOS.Lib.Machine
import DemonOS.Mouse

/-!
# The stream of the PS/2 mouse

However many bytes an interrupt or a tick finds, they are taken one after the other
(`run_collects`), so packets come out as they went in. A packet whose movement needs the ninth bit is
taken for a broken one and dropped with its buttons; of the others each moves the pointer once, and a
button's events are the changes of its bit (`run_decodes`).
-/

namespace DemonOS

namespace Mouse

/-- A packet of the mouse; the last byte is sent by one with a wheel. -/
structure Packet where
  flags : UInt8
  x : UInt8
  y : UInt8
  wheel : UInt8 := 0

inductive Button
  | left
  | right
  | middle
  deriving DecidableEq

namespace Button

def mask : Button → UInt8
  | left => 1
  | right => 2
  | middle => 4

def code : Button → UInt16
  | left => inputMouseLeft
  | right => inputMouseRight
  | middle => inputMouseMiddle

def held (b : Button) (buttons : UInt8) : Bool := buttons &&& b.mask ≠ 0

def press (b : Button) (e : InputEvent) : Option Bool :=
  if e.code ≠ b.code then none
  else if e.type = inputMouseButtonDown then some true
  else if e.type = inputMouseButtonUp then some false else none

def presses (b : Button) (events : List InputEvent) : List Bool := events.filterMap b.press

end Button

namespace Packet

def bytes (p : Packet) (wheel : Bool) : List UInt8 :=
  [p.flags, p.x, p.y] ++ if wheel then [p.wheel] else []

def delta (byte : UInt8) (sign : Bool) : ℤ := byte.toNat - if sign then 256 else 0

def deltaX (p : Packet) : ℤ := delta p.x (p.flags &&& 0x10 ≠ 0)
def deltaY (p : Packet) : ℤ := delta p.y (p.flags &&& 0x20 ≠ 0)

structure WellFormed (p : Packet) : Prop where
  first : p.flags &&& 0x08 ≠ 0
  fits : p.flags &&& 0xC0 = 0

def Near (p : Packet) : Prop :=
  (-128 ≤ p.deltaX ∧ p.deltaX < 128) ∧ -128 ≤ p.deltaY ∧ p.deltaY < 128

instance (p : Packet) : Decidable p.Near := inferInstanceAs (Decidable (_ ∧ _))

def buttons (p : Packet) : UInt8 := p.flags &&& 0x07

end Packet

/-- The pointer after a packet: its movement, accelerated, and kept on the screen. -/
def moved (limit : ℤ × ℤ) (at_ : ℤ × ℤ) (p : Packet) : ℤ × ℤ :=
  let factor := scale p.deltaX (-p.deltaY)
  (clamp limit.1 (at_.1 + p.deltaX * factor), clamp limit.2 (at_.2 + -p.deltaY * factor))

def changes : Bool → List Bool → List Bool
  | _, [] => []
  | was, now :: rest => if was = now then changes now rest else now :: changes now rest

theorem changes_alternate : ∀ (was : Bool) (l : List Bool),
    List.IsChain (· ≠ ·) (was :: changes was l)
  | was, [] => List.isChain_singleton was
  | was, now :: rest => by
    unfold changes
    split_ifs with h
    · rw [h]
      exact changes_alternate now rest
    · exact List.isChain_cons_cons.2 ⟨h, changes_alternate now rest⟩

variable {s t : Mouse} {b : Button} {p : Packet}

/-! ## One packet -/

theorem and_sign (byte : UInt8) : byte &&& 0x80 ≠ 0 ↔ 128 ≤ byte.toNat := by
  have hall : ∀ n < 256, UInt8.ofNat n &&& 0x80 ≠ 0 ↔ 128 ≤ (UInt8.ofNat n).toNat := by
    decide +kernel
  simpa using hall byte.toNat byte.toNat_lt

theorem delta_near (byte : UInt8) (sign : Bool) :
    (sign = decide (byte &&& 0x80 ≠ 0) ↔ -128 ≤ Packet.delta byte sign ∧ Packet.delta byte sign < 128)
      ∧ (sign = decide (byte &&& 0x80 ≠ 0) → signed byte = Packet.delta byte sign) := by
  have hlt := byte.toNat_lt
  have hsign : decide (byte &&& 0x80 ≠ 0) = decide (128 ≤ byte.toNat) :=
    decide_eq_decide.2 (and_sign byte)
  rw [hsign]
  unfold Packet.delta signed
  by_cases hbig : 128 ≤ byte.toNat <;> cases sign <;> simp [hbig] <;> omega

theorem near_iff : p.Near ↔ decide (p.flags &&& 0x10 ≠ 0) = decide (p.x &&& 0x80 ≠ 0)
    ∧ decide (p.flags &&& 0x20 ≠ 0) = decide (p.y &&& 0x80 ≠ 0) :=
  and_congr (delta_near p.x _).1.symm (delta_near p.y _).1.symm

structure OnScreen (s : Mouse) : Prop where
  left : 0 ≤ s.pointerX
  right : s.pointerX ≤ s.pointerMaxX
  top : 0 ≤ s.pointerY
  bottom : s.pointerY ≤ s.pointerMaxY

theorem clamp_within {limit x : ℤ} (h : 0 ≤ limit) : 0 ≤ clamp limit x ∧ clamp limit x ≤ limit := by
  unfold clamp
  split_ifs <;> omega

theorem clamp_self {limit x : ℤ} (h : 0 ≤ x) (h' : x ≤ limit) : clamp limit x = x := by
  unfold clamp
  rw [if_neg (by omega), if_neg (by omega)]

theorem publishMove_eq (h : s.OnScreen) (dx dy : ℤ) : ∃ events,
    s.publishMove dx dy = { s with
      pointerX := clamp s.pointerMaxX (s.pointerX + dx)
      pointerY := clamp s.pointerMaxY (s.pointerY + dy)
      published := s.published ++ events } ∧ ∀ b : Button, b.presses events = [] := by
  unfold publishMove
  split_ifs with hmoves
  · refine ⟨_, rfl, fun b => ?_⟩
    cases b <;> rfl
  · refine ⟨[], ?_, fun _ => rfl⟩
    rw [not_or, not_not, not_not] at hmoves
    obtain ⟨rfl, rfl⟩ := hmoves
    rw [Int.add_zero, Int.add_zero, clamp_self h.left h.right, clamp_self h.top h.bottom,
      List.append_nil]

theorem publishMouseButton_eq (s : Mouse) (b : Button) (buttons : UInt8) : ∃ events,
    s.publishMouseButton b.mask b.code buttons = { s with published := s.published ++ events }
      ∧ b.presses events = changes (b.held s.buttonState) [b.held buttons]
      ∧ ∀ b' ≠ b, b'.presses events = [] := by
  change ∃ events, (if b.held s.buttonState = b.held buttons then s else
    { s with published := s.published ++ [
      { type := if b.held buttons then inputMouseButtonDown else inputMouseButtonUp, code := b.code
        x := .ofInt s.pointerX, y := .ofInt s.pointerY
        value := if b.held buttons then 1 else 0 }] }) = _ ∧ _
  by_cases hsame : b.held s.buttonState = b.held buttons
  · rw [if_pos hsame, changes, if_pos hsame]
    exact ⟨[], by rw [List.append_nil], rfl, fun _ _ => rfl⟩
  · rw [if_neg hsame, changes, if_neg hsame]
    refine ⟨_, rfl, ?_, fun b' hb' => ?_⟩
    · cases b.held buttons <;>
        simp [Button.presses, Button.press, changes, inputMouseButtonUp, inputMouseButtonDown]
    · have hcode : b.code ≠ b'.code := by cases b <;> cases b' <;> first | decide | exact absurd rfl hb'
      simp [Button.presses, Button.press, hcode]

theorem presses_append (b : Button) (l l' : List InputEvent) :
    b.presses (l ++ l') = b.presses l ++ b.presses l' :=
  List.filterMap_append

theorem publishButtons_eq (s : Mouse) (buttons : UInt8) : ∃ events,
    ((s.publishMouseButton 1 inputMouseLeft buttons).publishMouseButton 2 inputMouseRight
        buttons).publishMouseButton 4 inputMouseMiddle buttons
      = { s with published := s.published ++ events }
      ∧ ∀ b : Button, b.presses events = changes (b.held s.buttonState) [b.held buttons] := by
  obtain ⟨e1, h1, hp1, ho1⟩ := publishMouseButton_eq s .left buttons
  obtain ⟨e2, h2, hp2, ho2⟩ :=
    publishMouseButton_eq { s with published := s.published ++ e1 } .right buttons
  obtain ⟨e3, h3, hp3, ho3⟩ :=
    publishMouseButton_eq { s with published := s.published ++ e1 ++ e2 } .middle buttons
  dsimp only [Button.mask, Button.code] at h1 h2 h3
  rw [h1, h2, h3]
  refine ⟨e1 ++ e2 ++ e3, by rw [List.append_assoc, List.append_assoc, ← List.append_assoc e1],
    fun b => ?_⟩
  rw [presses_append, presses_append]
  cases b
  · rw [hp1, ho2 _ (by decide), ho3 _ (by decide), List.append_nil, List.append_nil]
  · rw [hp2, ho1 _ (by decide), ho3 _ (by decide), List.nil_append, List.append_nil]
  · rw [hp3, ho1 _ (by decide), ho2 _ (by decide), List.nil_append, List.nil_append]

theorem publishScroll_eq (s : Mouse) (byte : UInt8) : ∃ events,
    s.publishScroll byte = { s with published := s.published ++ events }
      ∧ ∀ b : Button, b.presses events = [] := by
  unfold publishScroll
  dsimp only
  split_ifs
  · refine ⟨_, rfl, fun b => ?_⟩
    cases b <;> rfl
  · exact ⟨[], by rw [List.append_nil], fun _ => rfl⟩

structure Decoded (s t : Mouse) (taken : List Packet) : Prop where
  wheel : t.wheel = s.wheel
  limit : (t.pointerMaxX, t.pointerMaxY) = (s.pointerMaxX, s.pointerMaxY)
  packet : t.packet = s.packet
  pointer : (t.pointerX, t.pointerY)
    = taken.foldl (moved (s.pointerMaxX, s.pointerMaxY)) (s.pointerX, s.pointerY)
  buttons : t.buttonState = (taken.map Packet.buttons).getLastD s.buttonState
  packets : t.packets = s.packets + taken.length
  presses : ∀ b : Button, b.presses t.published = b.presses s.published
    ++ changes (b.held s.buttonState) (taken.map fun p => b.held p.buttons)

theorem decode_near (h : s.OnScreen) (hw : p.WellFormed) (hnear : p.Near) (wheel : UInt8) :
    Decoded s (s.decodeMousePacket p.flags p.x p.y wheel) [p] := by
  obtain ⟨hx, hy⟩ := near_iff.1 hnear
  have hdx : signed p.x = p.deltaX := (delta_near p.x _).2 hx
  have hdy : signed p.y = p.deltaY := (delta_near p.y _).2 hy
  unfold decodeMousePacket
  rw [if_neg (not_not.2 hw.fits), if_neg (by rw [not_or, not_not, not_not]; exact ⟨hx, hy⟩)]
  dsimp only
  rw [hdx, hdy]
  obtain ⟨moves, hmoves, hquiet⟩ := publishMove_eq h (p.deltaX * scale p.deltaX (-p.deltaY))
    (-p.deltaY * scale p.deltaX (-p.deltaY))
  rw [hmoves]
  obtain ⟨presses, hpresses, hchanges⟩ := publishButtons_eq { s with
      pointerX := clamp s.pointerMaxX (s.pointerX + p.deltaX * scale p.deltaX (-p.deltaY))
      pointerY := clamp s.pointerMaxY (s.pointerY + -p.deltaY * scale p.deltaX (-p.deltaY))
      published := s.published ++ moves } p.buttons
  dsimp only [Packet.buttons] at hpresses
  rw [hpresses]
  obtain ⟨scrolls, hscrolls, hstill⟩ := publishScroll_eq { s with
      pointerX := clamp s.pointerMaxX (s.pointerX + p.deltaX * scale p.deltaX (-p.deltaY))
      pointerY := clamp s.pointerMaxY (s.pointerY + -p.deltaY * scale p.deltaX (-p.deltaY))
      buttonState := p.flags &&& 0x07
      published := s.published ++ moves ++ presses } wheel
  rw [hscrolls]
  refine ⟨rfl, rfl, rfl, rfl, rfl, rfl, fun b => ?_⟩
  simp only [presses_append, hquiet, hstill, hchanges, List.append_nil, List.map_cons, List.map_nil]

theorem decode_far (hw : p.WellFormed) (hfar : ¬p.Near) (wheel : UInt8) :
    s.decodeMousePacket p.flags p.x p.y wheel = s := by
  unfold decodeMousePacket
  rw [if_neg (not_not.2 hw.fits), if_pos]
  rw [near_iff, not_and_or] at hfar
  exact hfar

theorem changes_cons (was now : Bool) (rest : List Bool) :
    changes was (now :: rest) = changes was [now] ++ changes now rest := by
  simp only [changes]
  split_ifs <;> rfl

theorem Decoded.cons {u : Mouse} {taken : List Packet} (h : Decoded s t [p])
    (h' : Decoded t u taken) : Decoded s u (p :: taken) where
  wheel := h'.wheel.trans h.wheel
  limit := h'.limit.trans h.limit
  packet := h'.packet.trans h.packet
  pointer := by
    obtain ⟨hx, hy⟩ := Prod.mk.inj h.limit
    rw [h'.pointer, hx, hy, h.pointer]
    rfl
  buttons := by
    have hb : t.buttonState = p.buttons := h.buttons
    rw [h'.buttons, hb, List.map_cons, List.getLastD_cons]
  packets := by
    have hp : t.packets = s.packets + 1 := h.packets
    rw [h'.packets, hp, List.length_cons]
    omega
  presses b := by
    have hb : t.buttonState = p.buttons := h.buttons
    have hp : b.presses t.published = b.presses s.published
        ++ changes (b.held s.buttonState) [b.held p.buttons] := h.presses b
    rw [h'.presses, hp, hb, List.map_cons, changes_cons _ _ (taken.map _), List.append_assoc]

theorem Decoded.onScreen (h : s.OnScreen) (ht : Decoded s t [p]) : t.OnScreen := by
  obtain ⟨hx, hy⟩ := Prod.mk.inj ht.limit
  obtain ⟨hpx, hpy⟩ := Prod.mk.inj ht.pointer
  have hX := clamp_within (x := s.pointerX + p.deltaX * scale p.deltaX (-p.deltaY))
    (h.left.trans h.right)
  have hY := clamp_within (x := s.pointerY + -p.deltaY * scale p.deltaX (-p.deltaY))
    (h.top.trans h.bottom)
  exact ⟨hpx ▸ hX.1, hpx ▸ hx ▸ hX.2, hpy ▸ hY.1, hpy ▸ hy ▸ hY.2⟩

/-! ## The stream -/

theorem collect_packet (hempty : s.packet = []) (hw : p.WellFormed) :
    (p.bytes s.wheel).foldl collect s
      = s.decodeMousePacket p.flags p.x p.y (if s.wheel then p.wheel else 0) := by
  obtain ⟨wheel, maxX, maxY, x, y, buttons, packet, packets, published⟩ := s
  obtain rfl : packet = [] := hempty
  cases wheel
  · simp [Packet.bytes, collect, hw.first]
  · simp [Packet.bytes, collect, hw.first]

theorem packets_decoded : ∀ (packets : List Packet) {s : Mouse}, s.OnScreen → s.packet = [] →
    (∀ p ∈ packets, p.WellFormed) →
    Decoded s ((packets.flatMap (·.bytes s.wheel)).foldl collect s) (packets.filter (·.Near))
  | [], s, _, _, _ => ⟨rfl, rfl, rfl, rfl, rfl, rfl, fun _ => (List.append_nil _).symm⟩
  | p :: packets, s, hs, hempty, hall => by
    have hw : p.WellFormed := hall p (List.mem_cons_self ..)
    have hrest : ∀ p ∈ packets, p.WellFormed := fun q hq => hall q (List.mem_cons_of_mem _ hq)
    rw [List.flatMap_cons, List.foldl_append, collect_packet hempty hw]
    by_cases hnear : p.Near
    · have hp := decode_near hs hw hnear (if s.wheel then p.wheel else 0)
      have hpackets := packets_decoded packets (hp.onScreen hs) (hp.packet.trans hempty) hrest
      rw [hp.wheel] at hpackets
      rw [List.filter_cons_of_pos (by simpa using hnear)]
      exact hp.cons hpackets
    · rw [List.filter_cons_of_neg (by simpa using hnear), decode_far hw hnear]
      exact packets_decoded packets hs hempty hrest

theorem drain_collects : ∀ (limit : ℕ) (s : Mouse) (waiting : List UInt8), ∃ taken,
    waiting = taken ++ (s.drainMouseBytes limit waiting).2
      ∧ (s.drainMouseBytes limit waiting).1 = taken.foldl collect s
  | 0, _, _ => ⟨[], rfl, rfl⟩
  | _ + 1, _, [] => ⟨[], rfl, rfl⟩
  | limit + 1, s, byte :: waiting => by
    obtain ⟨taken, hrest, hs⟩ := drain_collects limit (s.collect byte) waiting
    exact ⟨byte :: taken, congrArg (byte :: ·) hrest, hs⟩

def Event.bytes : Event → List UInt8
  | .sends bytes => bytes
  | .interrupt | .timer => []

theorem step_collects (at_ : Mouse × List UInt8) (e : Event) : ∃ taken,
    at_.2 ++ e.bytes = taken ++ (step at_ e).2 ∧ (step at_ e).1 = taken.foldl collect at_.1 := by
  obtain ⟨s, waiting⟩ := at_
  cases e with
  | sends bytes => exact ⟨[], rfl, rfl⟩
  | interrupt =>
    rw [Event.bytes, List.append_nil]
    exact drain_collects 32 s waiting
  | timer =>
    rw [Event.bytes, List.append_nil]
    exact drain_collects 8 s waiting

/-- What has been taken in a run and what still waits are what was sent, in order. -/
theorem run_collects : ∀ (events : List Event) (at_ : Mouse × List UInt8), ∃ taken,
    at_.2 ++ events.flatMap Event.bytes = taken ++ (events.foldl step at_).2
      ∧ (events.foldl step at_).1 = taken.foldl collect at_.1
  | [], _ => ⟨[], List.append_nil _, rfl⟩
  | e :: events, at_ => by
    obtain ⟨taken, hwaits, hs⟩ := step_collects at_ e
    obtain ⟨rest, hrest, hfinal⟩ := run_collects events (step at_ e)
    refine ⟨taken ++ rest, ?_, ?_⟩
    · rw [List.flatMap_cons, ← List.append_assoc, hwaits, List.append_assoc, hrest,
        List.append_assoc, List.foldl_cons]
    · rw [List.foldl_cons, List.foldl_append, hfinal, hs]

def run (wheel : Bool) (maxX maxY : ℕ) (events : List Event) : Mouse × List UInt8 :=
  events.foldl step (ps2MouseStart wheel maxX maxY, [])

/-- However the bytes of well-formed packets come in, the packets whose movement fits eight bits
are decoded once each and in order, and the others leave no trace. -/
theorem run_decodes (wheel : Bool) (maxX maxY : ℕ) (packets : List Packet)
    (hwell : ∀ p ∈ packets, p.WellFormed) (events : List Event)
    (hsent : events.flatMap Event.bytes = packets.flatMap (·.bytes wheel))
    (htaken : (run wheel maxX maxY events).2 = []) :
    let s := (run wheel maxX maxY events).1
    let near := packets.filter (·.Near)
    s.packets = near.length
      ∧ (s.pointerX, s.pointerY)
        = near.foldl (moved (maxX, maxY)) ((maxX / 2 : ℕ), (maxY / 2 : ℕ))
      ∧ s.buttonState = (near.map Packet.buttons).getLastD 0
      ∧ ∀ b : Button, b.presses s.published = changes false (near.map fun p => b.held p.buttons)
        ∧ List.IsChain (· ≠ ·) (false :: b.presses s.published) := by
  obtain ⟨taken, hbytes, hs⟩ := run_collects events (ps2MouseStart wheel maxX maxY, [])
  unfold run at htaken
  rw [List.nil_append, htaken, List.append_nil, hsent] at hbytes
  have hscreen : OnScreen (ps2MouseStart wheel maxX maxY) := by
    constructor <;> simp only [ps2MouseStart] <;> omega
  have hdecoded := packets_decoded packets hscreen rfl hwell
  rw [show (ps2MouseStart wheel maxX maxY).wheel = wheel from rfl, hbytes, ← hs] at hdecoded
  change Decoded _ (run wheel maxX maxY events).1 _ at hdecoded
  have hheld : ∀ b : Button, b.held 0 = false := by
    intro b
    cases b <;> rfl
  have hpresses : ∀ b : Button, b.presses (run wheel maxX maxY events).1.published
      = changes false ((packets.filter (·.Near)).map fun p => b.held p.buttons) := by
    intro b
    rw [hdecoded.presses b, show (ps2MouseStart wheel maxX maxY).buttonState = 0 from rfl, hheld]
    rfl
  refine ⟨hdecoded.packets.trans (Nat.zero_add _), ?_, hdecoded.buttons, fun b => ⟨hpresses b, ?_⟩⟩
  · exact_mod_cast hdecoded.pointer
  · rw [hpresses b]
    exact changes_alternate false _

theorem run_decodes_click : let s := (run false 99 99
      [.sends [0x09, 5], .interrupt, .sends [3, 0x08, 0], .timer, .sends [0], .interrupt]).1
    s.packets = 2 ∧ (s.pointerX, s.pointerY) = (59, 43)
      ∧ Button.left.presses s.published = [true, false] := by
  obtain ⟨hcount, hpointer, _, hpresses⟩ := run_decodes false 99 99 [⟨0x09, 5, 3, 0⟩, ⟨0x08, 0, 0, 0⟩]
    (by rintro p (_ | ⟨_, _ | ⟨_, h⟩⟩); exacts [⟨by decide, rfl⟩, ⟨by decide, rfl⟩, nomatch h])
    [.sends [0x09, 5], .interrupt, .sends [3, 0x08, 0], .timer, .sends [0], .interrupt] rfl
    (by decide +kernel)
  exact ⟨hcount.trans (by decide +kernel), hpointer.trans (by decide +kernel),
    (hpresses .left).1.trans (by decide +kernel)⟩

/-- A movement of 200 with the left button down leaves no trace. -/
theorem far_packet_dropped :
    let p : Packet := ⟨0x09, 200, 0, 0⟩
    let s := (run false 999 999 [.sends (p.bytes false), .interrupt]).1
    p.WellFormed ∧ p.deltaX = 200 ∧ (run false 999 999 [.sends (p.bytes false), .interrupt]).2 = []
      ∧ s.packets = 0 ∧ (s.pointerX, s.pointerY) ≠ moved (999, 999) (499, 499) p
      ∧ s.buttonState ≠ p.buttons ∧ Button.left.presses s.published = [] :=
  ⟨⟨by decide, rfl⟩, by decide +kernel⟩

end Mouse

end DemonOS
