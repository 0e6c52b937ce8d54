import DemonOS.Proofs.DemonX.SurfaceCalls
import DemonOS.Proofs.DemonX.SurfaceSize

/-!
# No pixmap is larger than a window

A pixmap in use has a surface that the kernel has made, and the kernel makes none that is larger than
a window of the largest size. So no drawable of the server is larger in any of its runs
(`drawable_within`).
-/

namespace DemonOS

namespace DemonX

/-- A pixmap in use has no pixels, or no more than a window of the largest size. -/
def Pixmap.Within (p : Pixmap) : Prop :=
  p.used = true → p.width = 0 ∨ p.width.toNat ≤ windowMaxWidth ∧ p.height.toNat ≤ windowMaxHeight

namespace Server

def PixmapsWithin (s : Server) : Prop := ∀ p, (s.pixmaps p).Within

variable {k : SurfaceKernel} {other : Answers} {s t : Server}

theorem Created.within {surface : UInt32} {width height : ℕ}
    (h : Created (k.answers other) surface width height) :
    width ≤ windowMaxWidth ∧ height ≤ windowMaxHeight := by
  obtain ⟨factory, calls, hne, -, -⟩ := h
  have hanswer : k.answers other (.surfaceCreate factory width height :: calls)
    = ((k.replay other calls).answer (other (.surfaceCreate factory width height :: calls))
      (.surfaceCreate factory width height)).1 := rfl
  rw [hanswer] at hne
  dsimp only [SurfaceKernel.answer] at hne
  rcases hcreate : (k.replay other calls).create
    (other (.surfaceCreate factory width height :: calls)) width height with _ | K
  · rw [hcreate] at hne
    exact absurd rfl hne
  · obtain ⟨created, ⟨-, -, hcreated⟩, -⟩ := SurfaceKernel.create_spec hcreate
    obtain ⟨-, -, -, -, -, -, -, hwide, -, hhigh, -⟩ := Surfaces.surfaceCreate_spec hcreated
    exact ⟨hwide, hhigh⟩

theorem PixmapsWithin.of_eq (h : s.PixmapsWithin) (heq : t.pixmaps = s.pixmaps) :
    t.PixmapsWithin := fun p => by
  rw [heq]
  exact h p

theorem PixmapsWithin.quiet (h : s.PixmapsWithin) (hq : Quiet s t) : t.PixmapsWithin :=
  h.of_eq hq.pixmaps

theorem Edit.within {kind : EditKind} (he : Edit (k.answers other) kind s t)
    (h : s.PixmapsWithin) : t.PixmapsWithin := by
  cases he with
  | quiet hq => exact h.quiet hq
  | draw _ hb => exact h.of_eq hb.pixmaps
  | link _ => exact h
  | adjust _ _ => exact h
  | surface _ _ _ _ => exact h
  | @pixmap _ i p hp =>
    intro j
    have hset : (s.setPixmap i p).pixmaps j = if j = i then p else s.pixmaps j :=
      Function.update_apply _ _ _ _
    rw [hset]
    split_ifs
    · intro hused
      rcases hp with hfree | hzero | hcreated
      · exact absurd hused (by simp [hfree])
      · exact .inl hzero
      · exact .inr hcreated.within
    · exact h j
  | retire => exact h
  | release => exact h.of_eq (releaseRoot_pixmaps s _)

theorem PixmapsWithin.path {K : EditKind → Prop} (h : s.PixmapsWithin)
    (hpath : Path (k.answers other) K s t) : t.PixmapsWithin :=
  hpath.keeps (I := PixmapsWithin) (fun _ _ _ _ he ha => he.within ha) h

theorem PixmapsWithin.send (h : s.PixmapsWithin) :
    (s.sendOutgoing (k.answers other)).PixmapsWithin := by
  have hdelivered : (s.deliver (k.answers other) s.outgoing.clientId).2.PixmapsWithin :=
    h.path (deliver_path s s.outgoing.clientId)
  rcases sendOutgoing_cases (k.answers other) s with heq | ⟨-, -, ⟨-, heq⟩ | ⟨-, heq⟩⟩ <;> rw [heq]
  · exact h
  · exact hdelivered
  · exact hdelivered.path (releaseClient_path _ _ _)

theorem PixmapsWithin.answer {r : Bool × Server} (h : r.2.PixmapsWithin) :
    (Server.answer (k.answers other) r).PixmapsWithin := by
  rcases answer_cases (k.answers other) r with heq | ⟨-, heq⟩ <;> rw [heq]
  · exact h
  · exact h.send

theorem Handled.within {id : UInt32} {r : Bool × Server}
    (h : Handled (k.answers other) s id r) (hs : s.PixmapsWithin) : r.2.PixmapsWithin := by
  cases h with
  | plain h => exact hs.path h
  | create hask =>
    rcases createWindow_cases s id with h | ⟨i, w, -, -, -, -, -, -, h⟩
    · exact hs.quiet h
    · exact hs.of_eq h.pixmaps
  | elect hroot =>
    rcases selectInputRoot_cases s id with h | ⟨mask, client, owner, h⟩
    · exact hs.quiet h
    · rw [h]
      exact hs
  | grab _ _ => exact hs.of_eq (passiveGrab_aside (P := fun _ => True) s _ id).pixmaps
  | attach hask =>
    rcases attachSurface_cases (k.answers other) s id with h | ⟨-, i, -, h⟩
    · exact hs.quiet h
    · exact hs.of_eq h.pixmaps
  | kill hask =>
    rcases killClient_cases (k.answers other) s id with h | ⟨-, h⟩
    · exact hs.quiet h
    · rw [h]
      exact hs.path (releaseClient_path _ _ _)
  | focus hask =>
    rcases setInputFocus_cases (k.answers other) s (s.findWindow id) id
      with h | ⟨i, -, -, -, -, h⟩
    · exact hs.quiet h
    · rw [h]
      have hnotify := hs.quiet (focusNotify_beside s (s.findWindow s.focusedWindow) 10)
      exact (PixmapsWithin.answer hnotify).quiet (focusOn_quiet _ _ i)
  | configure hask hi hr =>
    rcases configureWindow_cases (k.answers other) hr with h | ⟨-, h⟩
    · exact hs.quiet h
    · exact hs.of_eq h.pixmaps
  | reparent hask hi hr =>
    rcases reparentWindow_cases (k.answers other) hr with h | ⟨-, h⟩
    · exact hs.quiet h
    · exact hs.of_eq h.pixmaps
  | destroy hask hi => exact hs.path (destroyWindowState_path _ _ _)

/-- A drawable is no larger than a window. -/
theorem drawable_within {id : UInt32} {d : Drawable} {sys : Answers}
    (h : s.drawableSurface sys id = (some d, t)) (hs : s.PixmapsWithin) {x y : ℕ}
    (hx : x < d.width) (hy : y < d.height) : x < windowMaxWidth ∧ y < windowMaxHeight := by
  unfold drawableSurface at h
  rcases hp : s.findPixmap id with _ | p
  · rcases hw : s.findWindow id with _ | i <;> rw [hp, hw] at h
    · cases h
    · dsimp only at h
      split_ifs at h
      · cases (Prod.mk.inj h).1
      · obtain rfl := Option.some.inj (Prod.mk.inj h).1
        exact ⟨hx.trans_le (min_le_right _ _), hy.trans_le (min_le_right _ _)⟩
  · rw [hp] at h
    obtain rfl := Option.some.inj (Prod.mk.inj h).1
    dsimp only at hx hy
    have hused := (findPixmap_some hp).2
    rcases hs p hused with hzero | ⟨hwide, hhigh⟩
    · rw [hzero] at hx
      exact absurd hx (Nat.not_lt_zero x)
    · omega

end Server

namespace Process

variable {k : SurfaceKernel} {other : Answers}

theorem turn_within {s t : Server} {wire : ℕ → UInt8} (hs : s.PixmapsWithin)
    (hturn : s.turn (k.answers other) wire = running t) : t.PixmapsWithin := by
  have hassembly : ∀ a, Server.PixmapsWithin { s with assembly := a } := fun a => hs
  unfold Server.turn at hturn
  rcases Server.handle_cases (k.answers other) s wire with ⟨-, h⟩ | ⟨code, h⟩ | ⟨a, b, u, -, h, hquiet⟩
    | ⟨a, -, hask, h⟩ <;> rw [h] at hturn
  · obtain rfl := Process.running.inj hturn
    refine Server.PixmapsWithin.answer ?_
    rcases Server.nativeInput_cases (k.answers other) s wire with hquiet | ⟨-, i, -, heq⟩
    · exact hs.quiet hquiet
    · rw [heq]
      exact (hs.quiet (Server.event_beside s _ _)).path (Server.destroyWindowState_path _ _ i)
  · cases hturn
  · obtain rfl := Process.running.inj hturn
    exact Server.PixmapsWithin.answer ((hassembly a).quiet hquiet)
  · rcases hparse : Server.parseRequest { s with assembly := a } (k.answers other) with _ | r <;>
      rw [hparse] at hturn
    · cases hturn
    · obtain rfl := Process.running.inj hturn
      have hhandled := (Server.parseRequest_accounts (k.answers other)
        { s with assembly := a }).1 r hparse
      exact Server.PixmapsWithin.answer (hhandled.within (hassembly a))

theorem run_within {wires : List (ℕ → UInt8)} {s : Server}
    (h : run (k.answers other) (running {}) wires = running s) : s.PixmapsWithin := by
  have hstart : ({} : Server).PixmapsWithin := fun p hused => by cases hused
  have hrun := Machine.run_inv (step (k.answers other))
    (I := fun p => ∀ s, p = running s → s.PixmapsWithin) (fun p wire hp t ht => by
      rcases p with s | code | _
      · exact turn_within (hp s rfl) ht
      · cases ht
      · cases ht) wires _ (fun s hs => by
        obtain rfl := Process.running.inj hs
        exact hstart)
  exact hrun s h

end Process

end DemonX

end DemonOS
