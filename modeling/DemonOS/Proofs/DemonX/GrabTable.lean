import DemonOS.Proofs.DemonX.Reports

/-!
# Who writes the passive grabs

Only `GrabKey` and `GrabButton` put a passive grab into the table: every other request, the
compositor's messages and the sending of packets leave the grabs that are there or give them up
(`parseRequest_adds`, `nativeInput_sheds`, `answer_sheds`).
-/

namespace DemonOS

namespace DemonX

namespace Server

/-! ## Sending -/

theorem sendOutgoing_sheds (sys : Answers) (s : Server) : Sheds s (s.sendOutgoing sys) := by
  have hdeliver := (@deliver_path sys s s.outgoing.clientId).sheds
  rcases sendOutgoing_cases sys s with h | ⟨-, -, ⟨-, h⟩ | ⟨-, h⟩⟩ <;> rw [h]
  · exact .of_eq rfl
  · exact hdeliver
  · exact hdeliver.trans (releaseClient_path sys _ _).sheds

theorem answer_sheds (sys : Answers) (r : Bool × Server) : Sheds r.2 (answer sys r) := by
  rcases answer_cases sys r with h | ⟨-, h⟩ <;> rw [h]
  · exact .of_eq rfl
  · exact sendOutgoing_sheds sys _

/-! ## Requests -/

structure GrabsPassive (s : Server) : Prop where
  admitted : s.Admitted
  opcode : s.payload 0 = Opcode.grabKey ∨ s.payload 0 = Opcode.grabButton
  length : s.incoming.payloadLength.toNat = 24
  window : ¬(s.findWindow (s.field32 4) = none ∧ s.field32 4 ≠ rootWindow)

/-- What a request leaves of the passive grabs. -/
def Adds (s : Server) (r : Bool × Server) : Prop :=
  Sheds s r.2 ∨ (s.GrabsPassive ∧ r = s.passiveGrab (s.payload 0) (s.field32 4))

variable {sys : Answers} {s : Server} {r : Bool × Server}

theorem Quiet.adds (h : Quiet s r.2) : Adds s r := .inl h.toSheds

theorem Sets.adds {i : ℕ} {w : Window} (h : Sets i w s r.2) : Adds s r := .inl h.toSheds

theorem passiveGrab_adds (hask : s.Asks (s.payload 0) 24)
    (hop : s.payload 0 = Opcode.grabKey ∨ s.payload 0 = Opcode.grabButton) :
    Adds s (s.passiveGrab (s.payload 0) (s.field32 4)) := by
  by_cases hwindow : s.findWindow (s.field32 4) = none ∧ s.field32 4 ≠ rootWindow
  · unfold passiveGrab
    rw [if_pos hwindow]
    exact Quiet.adds (refuse_beside s _ _ _)
  · exact .inr ⟨⟨⟨rfl, hask.words, rfl, hask.granted⟩, hop, hask.length, hwindow⟩, rfl⟩

theorem Handled.adds (h : Handled sys s (s.field32 4) r) : Adds s r := by
  cases h with
  | plain h => exact .inl h.sheds
  | create _ =>
    rcases createWindow_cases s (s.field32 4) with h | ⟨i, w, -, -, -, -, -, -, h⟩
    · exact h.adds
    · exact h.adds
  | elect _ =>
    rcases selectInputRoot_cases s (s.field32 4) with h | ⟨mask, client, owner, h⟩
    · exact h.adds
    · exact .inl (.of_eq (by rw [h]))
  | grab hask hop =>
    obtain rfl := hask.opcode
    exact passiveGrab_adds hask hop
  | attach _ =>
    rcases attachSurface_cases sys s (s.field32 4) with h | ⟨-, i, -, h⟩
    · exact h.adds
    · exact h.adds
  | kill _ =>
    rcases killClient_cases sys s (s.field32 4) with h | ⟨-, h⟩
    · exact h.adds
    · rw [Adds, h]
      exact .inl (releaseClient_path sys s _).sheds
  | focus _ =>
    rcases setInputFocus_cases sys s (s.findWindow (s.field32 4)) (s.field32 4)
      with h | ⟨i, -, -, -, -, h⟩
    · exact h.adds
    · have hnotify : Quiet s (s.focusNotify (s.findWindow s.focusedWindow) 10).2 :=
        focusNotify_beside s _ _
      rw [h]
      exact .inl (hnotify.toSheds.trans ((answer_sheds sys _).trans (focusOn_quiet sys _ i).toSheds))
  | configure _ _ hr =>
    rcases configureWindow_cases sys hr with h | ⟨-, h⟩
    · exact h.adds
    · exact h.adds
  | reparent _ _ hr =>
    rcases reparentWindow_cases sys hr with h | ⟨-, h⟩
    · exact h.adds
    · exact h.adds
  | destroy _ _ => exact .inl (destroyWindowState_path sys s _).sheds

theorem parseRequest_adds (h : s.parseRequest sys = some r) : Adds s r :=
  ((parseRequest_accounts sys s).1 r h).adds

/-! ## The compositor's messages -/

theorem nativeInput_sheds (sys : Answers) (s : Server) (m : ℕ → UInt8) :
    Sheds s (s.nativeInput sys m).2 := by
  rcases nativeInput_cases sys s m with h | ⟨-, i, -, h⟩
  · exact h.toSheds
  · rw [h]
    exact (event_beside (P := fun _ => True) s _ _).toSheds.trans
      (destroyWindowState_path sys _ i).sheds

end Server

end DemonX

end DemonOS
