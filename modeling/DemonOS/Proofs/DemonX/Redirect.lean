import DemonOS.Proofs.DemonX.Turns

/-!
# The window manager keeps the root

A client that holds `SubstructureRedirect` on the root keeps it through every turn of the server but
one in which it gives it up, is released, or another client's selection on the root leaves the
redirection out (`turn_retains`). A selection is not looked at for its owner unless it asks for the
redirection, so that the last of these takes the root away from the window manager.
-/

namespace DemonOS

namespace DemonX

namespace Server

/-- The client is the window manager. -/
def Holds (s : Server) (c : UInt32) : Prop :=
  s.rootRedirectClient = c ∧ selects s.rootEventMask substructureRedirectMask = true

/-- The client is window manager still unless it has been released. -/
def Retains (c : UInt32) (s t : Server) : Prop :=
  ∃ gone, t.released = gone ++ s.released ∧ (c ∉ gone → s.Holds c → t.Holds c)

section

variable {c : UInt32} {s t u : Server}

theorem Retains.refl (s : Server) : Retains c s s := ⟨[], rfl, fun _ h => h⟩

theorem Retains.trans (h : Retains c s t) (h' : Retains c t u) : Retains c s u := by
  obtain ⟨gone, hgone, hkeep⟩ := h
  obtain ⟨gone', hgone', hkeep'⟩ := h'
  refine ⟨gone' ++ gone, by rw [hgone', hgone, List.append_assoc], fun hc hs => ?_⟩
  rw [List.mem_append, not_or] at hc
  exact hkeep' hc.1 (hkeep hc.2 hs)

theorem Retains.same (hmask : t.rootEventMask = s.rootEventMask)
    (hclient : t.rootRedirectClient = s.rootRedirectClient) (hreleased : t.released = s.released) :
    Retains c s t := ⟨[], hreleased, fun _ h => ⟨hclient.trans h.1, hmask ▸ h.2⟩⟩

theorem Aside.retains {P : SystemCall → Prop} (h : Aside P s t) : Retains c s t :=
  .same (congrArg Core.rootEventMask h.core) (congrArg Core.rootRedirectClient h.core)
    (congrArg Core.released h.core)

theorem Sets.retains {i : ℕ} {w : Window} (h : Sets i w s t) : Retains c s t :=
  .same h.rootEventMask h.rootRedirectClient h.released

theorem releaseRoot_retains (s : Server) (client : UInt32) : Retains c s (s.releaseRoot client) := by
  refine ⟨[client], ?_, fun hc hs => ?_⟩
  · unfold releaseRoot
    dsimp only
    split_ifs <;> rfl
  · have hne : s.rootRedirectClient ≠ client := fun h =>
      hc (List.mem_singleton.2 (hs.1.symm.trans h))
    unfold releaseRoot
    dsimp only
    rw [if_neg hne]
    exact hs

variable {sys : Answers}

theorem Edit.retains {k : EditKind} (h : Edit sys k s t) : Retains c s t := by
  cases h with
  | quiet h => exact h.retains
  | draw _ h => exact h.retains
  | link _ => exact .same rfl rfl rfl
  | adjust _ _ => exact .same rfl rfl rfl
  | surface _ _ _ _ => exact .same rfl rfl rfl
  | pixmap _ => exact .same rfl rfl rfl
  | retire => exact .same rfl rfl rfl
  | release => exact releaseRoot_retains _ _

theorem Path.retains {K : EditKind → Prop} (h : Path sys K s t) : Retains c s t :=
  h.keeps (I := Retains c s) (fun _ _ _ _ he ha => ha.trans he.retains) (.refl s)

theorem sendOutgoing_retains (sys : Answers) (s : Server) : Retains c s (s.sendOutgoing sys) := by
  have hdeliver : Retains c s (s.deliver sys s.outgoing.clientId).2 := (deliver_path s _).retains
  rcases sendOutgoing_cases sys s with h | ⟨-, -, ⟨-, h⟩ | ⟨-, h⟩⟩ <;> rw [h]
  · exact .refl s
  · exact hdeliver
  · exact hdeliver.trans (releaseClient_path sys _ _).retains

theorem answer_retains (sys : Answers) (r : Bool × Server) : Retains c r.2 (answer sys r) := by
  rcases answer_cases sys r with h | ⟨-, h⟩ <;> rw [h]
  · exact .refl _
  · exact sendOutgoing_retains sys r.2

/-- A selection on the root that leaves the redirection out. -/
def Drops (s : Server) : Prop :=
  s.SelectsRoot ∧ selects (s.field32 8) substructureRedirectMask = false

/-- A selection on the root keeps the window manager, who is refused to others, unless the
redirection is left out. -/
theorem selectInputRoot_retains (s : Server) (id : UInt32)
    (h : selects (s.field32 8) substructureRedirectMask = true) (hc : c ≠ 0) :
    Retains c s (s.selectInputRoot id).2 := by
  unfold selectInputRoot
  dsimp only
  by_cases hrefused : selects (s.field32 8) substructureRedirectMask ∧ s.rootRedirectClient ≠ 0
      ∧ s.rootRedirectClient ≠ s.incoming.clientId
  · rw [if_pos hrefused]
    exact (refuse_beside (P := fun _ => True) s _ _ _).retains
  · rw [if_neg hrefused]
    refine ⟨[], rfl, fun _ hs => ?_⟩
    have hclient : s.incoming.clientId = c := by
      by_contra hne
      rw [hs.1] at hrefused
      exact hrefused ⟨h, hc, Ne.symm hne⟩
    exact ⟨(if_pos h).trans hclient, h⟩

theorem Handled.retains {id : UInt32} {r : Bool × Server} (h : Handled sys s id r) (hc : c ≠ 0)
    (hdrops : ¬s.Drops) : Retains c s r.2 := by
  cases h with
  | plain h => exact h.retains
  | create _ =>
    rcases createWindow_cases s id with h | ⟨i, w, -, -, -, -, -, -, h⟩
    · exact h.retains
    · exact h.retains
  | elect hroot =>
    refine selectInputRoot_retains s id ?_ hc
    exact Bool.eq_true_of_not_eq_false fun hfalse => hdrops ⟨hroot, hfalse⟩
  | grab _ _ => exact (passiveGrab_aside (P := fun _ => True) s _ id).retains
  | attach _ =>
    rcases attachSurface_cases sys s id with h | ⟨-, i, -, h⟩
    · exact h.retains
    · exact h.retains
  | kill _ =>
    rcases killClient_cases sys s id with h | ⟨-, h⟩
    · exact h.retains
    · rw [h]
      exact (releaseClient_path sys s _).retains
  | focus _ =>
    rcases setInputFocus_cases sys s (s.findWindow id) id with h | ⟨i, -, -, -, -, h⟩
    · exact h.retains
    · rw [h]
      exact ((focusNotify_beside (P := fun _ => True) s _ _).retains.trans
        (answer_retains sys _)).trans (focusOn_quiet sys _ i).retains
  | configure _ _ hr =>
    rcases configureWindow_cases sys hr with h | ⟨-, h⟩
    · exact h.retains
    · exact h.retains
  | reparent _ _ hr =>
    rcases reparentWindow_cases sys hr with h | ⟨-, h⟩
    · exact h.retains
    · exact h.retains
  | destroy _ _ => exact (destroyWindowState_path sys s _).retains

theorem nativeInput_retains (s : Server) (wire : ℕ → UInt8) :
    Retains c s (s.nativeInput sys wire).2 := by
  rcases nativeInput_cases sys s wire with h | ⟨-, i, -, h⟩
  · exact h.retains
  · rw [h]
    exact (event_beside (P := fun _ => True) s _ _).retains.trans
      (destroyWindowState_path sys _ i).retains

/-- A turn keeps the window manager unless it drops the redirection. -/
theorem turn_retains {wire : ℕ → UInt8} (hc : c ≠ 0) (hturn : s.turn sys wire = .running t)
    (hdrops : ∀ q, s.asked wire = some q → ¬q.Drops) : Retains c s t := by
  have hassembly : ∀ a, Retains c s { s with assembly := a } := fun a => .same rfl rfl rfl
  unfold turn at hturn
  rcases handle_cases sys s wire with ⟨-, h⟩ | ⟨code, h⟩ | ⟨a, b, u, -, h, hquiet⟩ | ⟨a, -, hask, h⟩
    <;> rw [h] at hturn
  · obtain rfl := Process.running.inj hturn
    exact (nativeInput_retains s wire).trans (answer_retains sys _)
  · cases hturn
  · obtain rfl := Process.running.inj hturn
    exact ((hassembly a).trans hquiet.retains).trans (answer_retains sys _)
  · rcases hparse : Server.parseRequest { s with assembly := a } sys with _ | r <;>
      rw [hparse] at hturn
    · cases hturn
    · obtain rfl := Process.running.inj hturn
      have hhandled := (parseRequest_accounts sys { s with assembly := a }).1 r hparse
      exact ((hassembly a).trans (hhandled.retains hc (hdrops _ hask))).trans
        (answer_retains sys r)

end

end Server

namespace Process

/-- The client is the window manager, and no other is. -/
def Holds (p : Process) (c : UInt32) : Prop :=
  ∀ s, p = .running s → s.Holds c ∧ ∀ d, s.Holds d → d = c

/-- No client but the window manager selects on the root without the redirection. -/
def Undisturbed (p : Process) (wire : ℕ → UInt8) : Prop :=
  ∀ s q, p = .running s → s.asked wire = some q → q.Drops →
    q.rootRedirectClient = 0 ∨ q.rootRedirectClient = q.incoming.clientId

/-- The client selects on the root without the redirection, or is released. -/
def GivesUp (sys : Answers) (c : UInt32) (p : Process) (wire : ℕ → UInt8) : Prop :=
  ∃ s, p = .running s
    ∧ ((∃ q, s.asked wire = some q ∧ q.Drops ∧ q.incoming.clientId = c)
      ∨ ∃ t gone, s.turn sys wire = .running t ∧ t.released = gone ++ s.released ∧ c ∈ gone)

/-- Where no other client's selection on the root leaves the redirection out, the window manager
stays alone until it gives the root up or is released. -/
theorem redirect_exclusive (sys : Answers) (c : UInt32) (hc : c ≠ 0) (p : Process)
    (wires : List (ℕ → UInt8)) (hmeets : Machine.Meets (step sys) Undisturbed p wires)
    (hheld : p.Holds c) :
    (∀ before, before <+: wires → (run sys p before).Holds c)
      ∨ ∃ before wire after, wires = before ++ wire :: after
        ∧ (∀ first, first <+: before → (run sys p first).Holds c)
        ∧ GivesUp sys c (run sys p before) wire := by
  refine Machine.run_until (step sys) (fun p => Holds p c) (GivesUp sys c) (I := fun _ => True)
    (fun _ _ _ _ => trivial) (fun p wire _ hok hp => ?_) wires p trivial hmeets hheld
  rcases p with s | code | _
  · by_cases hgives : GivesUp sys c (.running s) wire
    · exact .inr hgives
    refine .inl fun t ht => ?_
    have hs := (hp s rfl).1
    have hretains : Server.Retains c s t := Server.turn_retains hc ht fun q hq hdrops => by
      have hclient : q.incoming.clientId ≠ c := fun h =>
        hgives ⟨s, rfl, .inl ⟨q, hq, hdrops, h⟩⟩
      have hroot : q.rootRedirectClient = c := by
        obtain ⟨a, -, rfl⟩ := Server.asked_eq hq
        exact hs.1
      rcases hok s q rfl hq hdrops with h | h
      · exact hc (hroot.symm.trans h)
      · exact hclient (h.symm.trans hroot)
    obtain ⟨gone, hgone, hkeep⟩ := hretains
    have ht' := hkeep (fun hmem => hgives ⟨s, rfl, .inr ⟨t, gone, ht, hgone, hmem⟩⟩) hs
    exact ⟨ht', fun d hd => hd.1.symm.trans ht'.1⟩
  · exact .inl fun t ht => by cases ht
  · exact .inl fun t ht => by cases ht

def rootState (p : Process) : Option (UInt32 × UInt32) :=
  p.server.map fun s => (s.rootRedirectClient, s.rootEventMask)

theorem holds_of_rootState {p : Process} {c mask : UInt32} (h : p.rootState = some (c, mask))
    (hmask : selects mask substructureRedirectMask = true) : p.Holds c := by
  rintro s rfl
  obtain ⟨rfl, rfl⟩ := Prod.mk.inj (Option.some.inj h)
  exact ⟨⟨rfl, hmask⟩, fun d hd => hd.1.symm⟩

theorem undisturbed_of_asked {p : Process} {wire : ℕ → UInt8} {mask : UInt32}
    (h : (p.asked wire).map (fun q => q.field32 8) = some mask)
    (hmask : selects mask substructureRedirectMask = true) : p.Undisturbed wire := by
  rintro s q rfl hq hdrops
  have hfield : q.field32 8 = mask := by simpa [asked, server, hq] using h
  rw [Server.Drops, hfield, hmask] at hdrops
  cases hdrops.2

/-- The first client has asked for the redirection, on a system that answers no call. -/
def managed : Process := run (fun _ => failure) (running {}) [selectRoot 1 substructureRedirectMask]

theorem managed_holds : managed.Holds 1 :=
  @holds_of_rootState _ _ substructureRedirectMask (by decide +kernel) (by decide)

/-- Another client that asks for the redirection is refused. -/
theorem redirect_exclusive_refused :
    (∀ before, before <+: [selectRoot 2 substructureRedirectMask] →
      (run (fun _ => failure) managed before).Holds 1)
      ∨ ∃ before wire after, [selectRoot 2 substructureRedirectMask] = before ++ wire :: after
        ∧ (∀ first, first <+: before → (run (fun _ => failure) managed first).Holds 1)
        ∧ GivesUp (fun _ => failure) 1 (run (fun _ => failure) managed before) wire :=
  redirect_exclusive _ 1 (by decide) _ _
    ⟨@undisturbed_of_asked _ _ substructureRedirectMask (by decide +kernel) (by decide),
      trivial⟩ managed_holds

/-- A client that selects nothing on the root takes it from the window manager. -/
theorem redirect_not_exclusive :
    ¬∀ (sys : Answers) (c : UInt32), c ≠ 0 → ∀ first wires : List (ℕ → UInt8),
      (run sys (running {}) first).Holds c →
        (∀ before, before <+: wires → (run sys (run sys (running {}) first) before).Holds c)
          ∨ ∃ before wire after, wires = before ++ wire :: after
            ∧ (∀ kept, kept <+: before → (run sys (run sys (running {}) first) kept).Holds c)
            ∧ GivesUp sys c (run sys (run sys (running {}) first) before) wire := by
  intro h
  have hroot : (managed.step (fun _ => failure) (selectRoot 2 0)).rootState = some (0, 0) := by
    decide +kernel
  have hasked : (managed.asked (selectRoot 2 0)).map (fun q => q.incoming.clientId) = some 2 := by
    decide +kernel
  have hreleased : (managed.step (fun _ => failure) (selectRoot 2 0)).server.map Server.released
      = some [] := by decide +kernel
  rcases h (fun _ => failure) 1 (by decide) [selectRoot 1 substructureRedirectMask]
      [selectRoot 2 0] managed_holds with hall | ⟨before, wire, after, hwires, -, s, hs, hgives⟩
  · have hholds : (managed.step (fun _ => failure) (selectRoot 2 0)).Holds 1 :=
      hall _ List.prefix_rfl
    rcases hp : managed.step (fun _ => failure) (selectRoot 2 0) with t | code | _ <;>
      rw [hp] at hroot
    · have howner : t.rootRedirectClient = 0 := (Prod.mk.inj (Option.some.inj hroot)).1
      have hheld : t.rootRedirectClient = 1 := (hholds t hp).1.1
      rw [howner] at hheld
      cases hheld
    · cases hroot
    · cases hroot
  · obtain ⟨rfl, rfl, rfl⟩ : before = [] ∧ wire = selectRoot 2 0 ∧ after = [] := by
      rcases before with _ | ⟨_, _⟩
      · exact ⟨rfl, (List.cons.inj hwires).1.symm, (List.cons.inj hwires).2.symm⟩
      · cases List.append_ne_nil_of_right_ne_nil _ (List.cons_ne_nil _ _)
          (List.cons.inj hwires).2.symm
    have hs' : managed = running s := hs
    rw [hs'] at hasked hreleased
    rcases hgives with ⟨q, hq, -, hclient⟩ | ⟨t, gone, ht, hgone, hmem⟩
    · have hother : q.incoming.clientId = 2 := by simpa [asked, server, hq] using hasked
      rw [hother] at hclient
      cases hclient
    · have hnone : t.released = [] := by simpa [step, ht, server] using hreleased
      rw [hnone] at hgone
      rw [(List.append_eq_nil_iff.1 hgone.symm).1] at hmem
      cases hmem

end Process

end DemonX

end DemonOS
