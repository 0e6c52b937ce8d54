import DemonOS.Proofs.DemonX.Releases

/-!
# Drawing inside surfaces

The server draws with the size of the window, clamped, and not with that of the surface. The two agree
as long as no window with a surface is resized and no surface of another size is attached
(`Process.drawing_in_surfaces`): every pixel a call names then lies in its surface.
-/

namespace DemonOS

namespace DemonX

/-! ## Sizes -/

/-- The kernel's surfaces: each has one size, the one it was created with and is measured by. -/
structure SurfaceService (sys : Answers) (size : UInt32 → ℕ × ℕ) : Prop where
  distinct : Server.Distinct sys
  created : ∀ factory width height calls,
    sys (.surfaceCreate factory width height :: calls) ≠ failure →
    sys (.surfaceCreate factory width height :: calls) ≤ 0xFFFFFFFF →
    size (sys (.surfaceCreate factory width height :: calls)).toUInt32 = (width, height)
  measured : ∀ surface calls calls',
    sys (.handleQuery surface 0 :: calls) = failure ∨ sys (.handleQuery surface 1 :: calls') = failure
      ∨ size surface = ((sys (.handleQuery surface 0 :: calls)).toNat,
        (sys (.handleQuery surface 1 :: calls')).toNat)
  /-- The handles of the eighth client's channel leave the last window record free. -/
  eighth : ∀ calls, sys (.connectReply 8 :: calls) ≠ failure →
    Server.handleByte (sys (.connectReply 8 :: calls)) 5 = 0

def SystemCall.Inside (size : UInt32 → ℕ × ℕ) : SystemCall → Prop
  | .surfaceWrite surface pixels offset =>
    offset + pixels.length ≤ (size surface).1 * (size surface).2
  | .readPixel surface index => index < (size surface).1 * (size surface).2
  | _ => True

theorem SystemCall.inside_of_not_draws {size : UInt32 → ℕ × ℕ} {c : SystemCall}
    (h : c.draws = false) : c.Inside size := by
  cases c with
  | surfaceWrite _ _ _ => cases h
  | readPixel _ _ => cases h
  | _ => trivial

def Extent.Agrees (size : UInt32 → ℕ × ℕ) (e : Extent) : Prop :=
  e.surfaceHandle ≠ 0 → e.surfaceHandle ≠ fallbackSurface →
    size e.surfaceHandle = (min e.width.toNat windowMaxWidth, min e.height.toNat windowMaxHeight)

def Pixmap.Agrees (size : UInt32 → ℕ × ℕ) (p : Pixmap) : Prop :=
  p.used = true → p.width = 0 ∨ size p.surfaceHandle = (p.width.toNat, p.height.toNat)

def Window.Backed (w : Window) : Prop := w.surfaceHandle ≠ 0 ∧ w.surfaceHandle ≠ fallbackSurface

namespace Server

variable {sys : Answers} {size : UInt32 → ℕ × ℕ} {s t : Server}

/-- Sizes agree, and all that was drawn lies inside surfaces. The last window record lies on reply
handles. -/
structure Fits (size : UInt32 → ℕ × ℕ) (s : Server) : Prop where
  windows : ∀ i, i < 15 → (s.window i).extent.Agrees size
  pixmaps : ∀ p, (s.pixmaps p).Agrees size
  calls : ∀ c ∈ s.calls, c.Inside size

theorem Fits.calls_append (h : s.Fits size) (hnew : ∃ new, t.calls = new ++ s.calls
    ∧ ∀ c ∈ new, c.Inside size) : ∀ c ∈ t.calls, c.Inside size := by
  obtain ⟨new, heq, hin⟩ := hnew
  intro c hc
  rw [heq] at hc
  exact (List.mem_append.1 hc).elim (hin c) (h.calls c)

theorem Fits.inside (h : s.Fits size) (hfree : (s.window 15).used = 0) {surface : UInt32}
    {width height : ℕ} (hshows : s.Shows surface width height) {c : SystemCall}
    (hc : Within surface width height c) : c.Inside size := by
  have hle : width * height ≤ (size surface).1 * (size surface).2 := by
    rcases hshows with ⟨i, hi, hused, rfl, hne, hreal, rfl, rfl⟩ | ⟨p, -, hused, rfl, rfl, rfl⟩
    · have hlt : i < 15 := by
        have : i ≠ 15 := fun heq => hused (heq ▸ hfree)
        simp only [windowLimit] at hi
        omega
      have hsize : size (s.window i).surfaceHandle = (clampedWidth (s.window i),
        clampedHeight (s.window i)) := h.windows i hlt hne hreal
      rw [hsize]
    · rcases h.pixmaps p hused with hzero | hsize
      · simp [hzero]
      · rw [hsize]
  cases c with
  | surfaceWrite a pixels offset =>
    obtain ⟨rfl, hlt⟩ := hc
    exact hlt.trans hle
  | readPixel a index =>
    obtain ⟨rfl, hlt⟩ := hc
    exact hlt.trans_le hle
  | _ => trivial

theorem Fits.aside (h : s.Fits size) {P : SystemCall → Prop} (hb : Aside P s t)
    (hP : ∀ c, P c → c.Inside size) : t.Fits size where
  windows i hi := by
    rw [hb.window]
    exact h.windows i hi
  pixmaps := by
    rw [hb.pixmaps]
    exact h.pixmaps
  calls := by
    obtain ⟨new, heq, hnew⟩ := hb.calls
    exact h.calls_append ⟨new, heq, fun c hc => hP c (hnew c hc)⟩

theorem Fits.quiet (h : s.Fits size) (hq : Quiet s t) : t.Fits size :=
  h.aside hq.toAside fun _ => SystemCall.inside_of_not_draws

theorem Fits.setWindow (h : s.Fits size) (i : ℕ) {w : Window}
    (hw : i < 15 → w.extent.Agrees size) : (s.setWindow i w).Fits size where
  windows j hj := by
    rw [window_setWindow]
    split_ifs with hji
    · exact hw (hji ▸ hj)
    · exact h.windows j hj
  pixmaps := h.pixmaps
  calls := h.calls

theorem Fits.sets (h : s.Fits size) {i : ℕ} {w : Window} (hset : Sets i w s t)
    (hw : i < 15 → w.extent.Agrees size) : t.Fits size where
  windows j hj := by
    rw [hset.window]
    split_ifs with hji
    · exact hw (hji ▸ hj)
    · exact h.windows j hj
  pixmaps := by
    rw [hset.pixmaps]
    exact h.pixmaps
  calls := by
    obtain ⟨new, heq, hnew⟩ := hset.calls
    exact h.calls_append ⟨new, heq, fun c hc => SystemCall.inside_of_not_draws (hnew c hc)⟩

theorem Created.size_eq (hsys : SurfaceService sys size) {surface : UInt32} {width height : ℕ}
    (h : Created sys surface width height) : size surface = (width, height) := by
  obtain ⟨factory, calls, hne, hle, rfl⟩ := h
  exact hsys.created factory width height calls hne hle

theorem releaseRoot_pixmaps (s : Server) (client : UInt32) :
    (s.releaseRoot client).pixmaps = s.pixmaps := by
  unfold releaseRoot
  dsimp only
  split_ifs <;> rfl

theorem releaseRoot_calls (s : Server) (client : UInt32) :
    (s.releaseRoot client).calls = s.calls := by
  unfold releaseRoot
  dsimp only
  split_ifs <;> rfl

theorem setReplyHandle_extent (s : Server) (c : ℕ) (handle : UInt64) {i : ℕ} (hi : i < 15) :
    ((s.setReplyHandle c handle).window i).extent = (s.window i).extent := by
  have haddress := address_windows i
  have hhandle := address_replyHandles c
  show Extent.mk (read16 (LittleEndian.store s.memory _ 8 handle.toNat) _)
    (read16 (LittleEndian.store s.memory _ 8 handle.toNat) _)
    (read32 (LittleEndian.store s.memory _ 8 handle.toNat) _) = _
  rw [read16_store_of_disjoint _ _ (by omega), read16_store_of_disjoint _ _ (by omega),
    read32_store_of_disjoint _ _ (by omega)]
  rfl

theorem Edit.fits (hsys : SurfaceService sys size) {k : EditKind} (he : Edit sys k s t)
    (hdraw : k = .draw → (s.window 15).used = 0) (h : s.Fits size) : t.Fits size := by
  cases he with
  | quiet hq => exact h.quiet hq
  | draw hP hb =>
    refine h.aside hb.toAside fun c hc => ?_
    by_cases hdraws : c.draws = true
    · obtain ⟨surface, width, height, hshows, hwithin⟩ := hP c hc hsys.distinct hdraws
      exact h.inside (hdraw rfl) hshows hwithin
    · exact SystemCall.inside_of_not_draws (Bool.not_eq_true _ ▸ hdraws)
  | link _ =>
    exact ⟨fun i hi => by rw [setReplyHandle_extent _ _ _ hi]; exact h.windows i hi, h.pixmaps,
      h.calls⟩
  | @adjust _ i w _ hextent => exact h.setWindow i fun hi => hextent ▸ h.windows i hi
  | @surface _ i w _ hwidth hheight hcases =>
    refine h.setWindow i fun hi hne hreal => ?_
    rcases hcases with hzero | hfallback | hcreated
    · exact absurd hzero hne
    · exact absurd hfallback hreal
    · exact hcreated.size_eq hsys
  | @pixmap _ i p hcases =>
    refine ⟨h.windows, fun j => ?_, h.calls⟩
    show (Function.update s.pixmaps i p j).Agrees size
    by_cases hj : j = i
    · rw [hj, Function.update_self]
      rcases hcases with hfree | hwidth | hcreated
      · exact fun hused => absurd (hfree.symm.trans hused) Bool.false_ne_true
      · exact fun _ => .inl hwidth
      · exact fun _ => .inr (hcreated.size_eq hsys)
    · rw [Function.update_of_ne hj]
      exact h.pixmaps j
  | retire => exact h.setWindow _ fun hi => h.windows _ hi
  | release =>
    exact ⟨fun i hi => by rw [releaseRoot_window]; exact h.windows i hi,
      by rw [releaseRoot_pixmaps]; exact h.pixmaps, by rw [releaseRoot_calls]; exact h.calls⟩

/-! ## What a turn keeps -/

/-- What the server keeps between two turns. -/
structure Sound (size : UInt32 → ℕ × ℕ) (s : Server) : Prop where
  fits : s.Fits size
  fifteen : (s.window 15).used = 0

theorem Sound.quiet (h : s.Sound size) (hq : Quiet s t) : t.Sound size :=
  ⟨h.fits.quiet hq, by rw [hq.window, h.fifteen]⟩

theorem Sound.plain (hsys : SurfaceService sys size) (h : s.Sound size)
    (hpath : Path sys EditKind.plain s t) : t.Sound size := by
  refine hpath.keeps (I := Sound size) (fun k a b hk he ha => ?_) h
  exact ⟨he.fits hsys (fun _ => ha.fifteen) ha.fits,
    ((Path.single he hk).used sys 15).trans ha.fifteen⟩

theorem Fits.path (hsys : SurfaceService sys size) {K : EditKind → Prop} (hK : ¬K .draw)
    (h : s.Fits size) (hpath : Path sys K s t) : t.Fits size :=
  hpath.keeps (I := Fits size) (fun _ _ _ hk he ha => he.fits hsys (fun hd => absurd (hd ▸ hk) hK) ha)
    h

theorem Sound.release (hsys : SurfaceService sys size) (h : s.Fits size) {client : UInt32}
    (hclient : client ≠ 0) (hfree : client.toNat - 1 ≠ 7 → (s.window 15).used = 0) :
    (s.releaseClient sys client).Sound size :=
  ⟨h.path hsys (K := EditKind.closing) id (releaseClient_path sys s client),
    marks_fifteen.released (by omega) hclient hfree⟩

theorem Sound.send (hsys : SurfaceService sys size) (h : s.Sound size) :
    (s.sendOutgoing sys).Sound size := by
  have hpath : Path sys (EditKind.linking s.outgoing.clientId
      (s.deliver sys s.outgoing.clientId).1) s (s.deliver sys s.outgoing.clientId).2 :=
    deliver_path s s.outgoing.clientId
  have hfits := h.fits.path hsys (K := EditKind.linking s.outgoing.clientId
    (s.deliver sys s.outgoing.clientId).1) id hpath
  rcases sendOutgoing_cases sys s with heq | ⟨hclient, hslot, ⟨hsent, heq⟩ | ⟨-, heq⟩⟩ <;> rw [heq]
  · exact h
  · rw [hsent] at hpath
    refine ⟨hfits, marks_fifteen.delivered (fun calls hc hne => ?_) hpath h.fifteen⟩
    have height : s.outgoing.clientId = 8 := UInt32.toNat_inj.1 (by simp; omega)
    rw [height] at hne ⊢
    exact hsys.eighth calls hne
  · exact .release hsys hfits hclient fun hne => marks_fifteen.elsewhere hpath hne h.fifteen

theorem Sound.answer (hsys : SurfaceService sys size) {r : Bool × Server} (h : r.2.Sound size) :
    (Server.answer sys r).Sound size := by
  rcases answer_cases sys r with heq | ⟨-, heq⟩ <;> rw [heq]
  · exact h
  · exact h.send hsys

theorem Sound.destroy (hsys : SurfaceService sys size) (h : s.Sound size) (i : ℕ) :
    (s.destroyWindowState sys i).Sound size := by
  refine ⟨h.fits.path hsys (K := EditKind.closing) id (destroyWindowState_path sys s i), ?_⟩
  rw [destroyWindowState_window]
  split_ifs
  · rfl
  · exact h.fifteen

/-- The requests that could part the size of a window and that of its surface do not: a window is
created in a record that is not the last, one with a surface is not resized, and a surface is attached
that has the window's size. -/
structure Fitting (sys : Answers) (s : Server) : Prop where
  create : s.Asks Opcode.createWindow 32 → s.field32 8 = rootWindow →
    (s.allocateWindow (s.field32 4) s.incoming.clientId).isSome →
    ∃ i, i < 15 ∧ (s.window i).used = 0
  configure : s.Asks Opcode.configureWindow s.incoming.payloadLength.toNat → s.Configures →
    ∀ i, s.findWindow (s.field32 4) = some i → (s.window i).Backed →
    clampedWidth (applyConfigure s.payload (s.field16 8) (s.window i)) = clampedWidth (s.window i)
      ∧ clampedHeight (applyConfigure s.payload (s.field16 8) (s.window i))
        = clampedHeight (s.window i)
  attach : s.Asks Opcode.attachSurface 16 → s.Measured sys →
    ∀ i, s.findWindow (s.field32 4) = some i → (s.field16 12).toNat = clampedWidth (s.window i)
      ∧ (s.field16 14).toNat = clampedHeight (s.window i)

theorem Sound.create (h : s.Sound size) (hproper : ∃ i, i < 15 ∧ (s.window i).used = 0) {i : ℕ}
    {w : Window} (hfree : Table.firstIndex windowLimit (fun i => (s.window i).used = 0) = some i)
    (hw : w.surfaceHandle = 0) (hset : Sets i w s t) : t.Sound size := by
  obtain ⟨-, -, hfirst⟩ := Table.firstIndex_eq_some.1 hfree
  have hi : i < 15 := by
    obtain ⟨k, hk, hkfree⟩ := hproper
    by_contra hge
    have := hfirst k (by omega)
    simp [hkfree] at this
  exact ⟨h.fits.sets hset fun _ hne => absurd hw hne,
    by rw [hset.window, if_neg (by omega), h.fifteen]⟩

theorem Sound.sets (h : s.Sound size) {id : UInt32} {i : ℕ} {w : Window}
    (hi : s.findWindow id = some i) (hset : Sets i w s t)
    (hw : (s.window i).extent.Agrees size → w.extent.Agrees size) : t.Sound size := by
  have hne : i ≠ 15 := fun heq => (findWindow_some hi).2.1 (heq ▸ h.fifteen)
  exact ⟨h.fits.sets hset fun hlt => hw (h.fits.windows i hlt),
    by rw [hset.window, if_neg (Ne.symm hne), h.fifteen]⟩

theorem Measured.agrees (hsys : SurfaceService sys size) (hm : s.Measured sys) {w v : Window}
    (hw : w.extent = { v.extent with surfaceHandle := s.field32 8 })
    (hsize : (s.field16 12).toNat = clampedWidth v ∧ (s.field16 14).toNat = clampedHeight v) :
    v.extent.Agrees size → w.extent.Agrees size := by
  rintro - - -
  obtain ⟨calls, hwidth⟩ := hm.width
  obtain ⟨calls', hheight⟩ := hm.height
  have hfailure : ∀ r : UInt64, ∀ v : UInt16, r.toNat = v.toNat → r ≠ failure := by
    rintro r v h rfl
    have := v.toNat_lt
    rw [← h] at this
    exact absurd this (by decide)
  rw [hw]
  rcases hsys.measured (s.field32 8) calls calls' with h | h | h
  · exact absurd h (hfailure _ _ hwidth)
  · exact absurd h (hfailure _ _ hheight)
  · rw [hwidth, hheight, hsize.1, hsize.2] at h
    exact h

theorem configureValue_surfaceHandle (bit : UInt16) (v : UInt32) (w : Window) :
    (configureValue bit v w).surfaceHandle = w.surfaceHandle := by
  unfold configureValue
  split_ifs <;> rfl

theorem applyConfigure_surfaceHandle (payload : ℕ → UInt8) (mask : UInt16) (w : Window) :
    (applyConfigure payload mask w).surfaceHandle = w.surfaceHandle := by
  suffices ∀ (l : List UInt16) (r : Window × ℕ), (l.foldl (fun r bit =>
      (configureValue bit (read32 payload r.2) r.1, r.2 + 4)) r).1.surfaceHandle
        = r.1.surfaceHandle from this _ _
  intro l
  induction l with
  | nil => exact fun _ => rfl
  | cons bit l ih => exact fun r => (ih _).trans (configureValue_surfaceHandle bit _ _)

theorem applyConfigure_agrees {payload : ℕ → UInt8} {mask : UInt16} {w : Window}
    (hw : w.extent.Agrees size)
    (hsize : w.Backed → clampedWidth (applyConfigure payload mask w) = clampedWidth w
      ∧ clampedHeight (applyConfigure payload mask w) = clampedHeight w) :
    (applyConfigure payload mask w).extent.Agrees size := by
  intro hne hreal
  have hsurface := applyConfigure_surfaceHandle payload mask w
  have hbacked : w.Backed := ⟨hsurface ▸ hne, hsurface ▸ hreal⟩
  obtain ⟨hwidth, hheight⟩ := hsize hbacked
  show size (applyConfigure payload mask w).surfaceHandle
    = (clampedWidth (applyConfigure payload mask w), clampedHeight (applyConfigure payload mask w))
  rw [hsurface, hwidth, hheight]
  exact hw hbacked.1 hbacked.2

theorem Handled.sound (hsys : SurfaceService sys size) {r : Bool × Server}
    (h : Handled sys s (s.field32 4) r) (hs : s.Sound size) (hfit : s.Fitting sys) :
    r.2.Sound size := by
  cases h with
  | plain h => exact hs.plain hsys h
  | create hask =>
    rcases createWindow_cases s (s.field32 4) with h | ⟨i, w, hlength, hroot, halloc, hfree, hw, -, h⟩
    · exact hs.quiet h
    · rw [hlength] at hask
      exact hs.create (hfit.create hask hroot halloc) hfree hw h
  | elect hroot =>
    rcases selectInputRoot_cases s (s.field32 4) with h | ⟨mask, client, owner, h⟩
    · exact hs.quiet h
    · rw [h]
      exact ⟨⟨hs.fits.windows, hs.fits.pixmaps, hs.fits.calls⟩, hs.fifteen⟩
  | grab _ _ =>
    have hgrab := passiveGrab_aside (P := fun c => c.draws = false) s
    exact ⟨hs.fits.aside (hgrab _ _) fun _ => SystemCall.inside_of_not_draws,
      by rw [(hgrab _ _).window, hs.fifteen]⟩
  | attach hask =>
    rcases attachSurface_cases sys s (s.field32 4) with h | ⟨hmeasured, i, hi, h⟩
    · exact hs.quiet h
    · exact hs.sets hi h (hmeasured.agrees hsys rfl (hfit.attach hask hmeasured i hi))
  | kill hask =>
    rcases killClient_cases sys s (s.field32 4) with h | ⟨howner, h⟩
    · exact hs.quiet h
    · rw [h]
      exact .release hsys hs.fits howner fun _ => hs.fifteen
  | focus hask =>
    rcases setInputFocus_cases sys s (s.findWindow (s.field32 4)) (s.field32 4)
      with h | ⟨i, hi, hmapped, hvalue, hother, h⟩
    · exact hs.quiet h
    · have hnotify : Quiet s (s.focusNotify (s.findWindow s.focusedWindow) 10).2 :=
        focusNotify_beside s _ _
      rw [h]
      exact (Sound.answer hsys (hs.quiet hnotify)).quiet (focusOn_quiet sys _ i)
  | configure hask hi hr =>
    rcases configureWindow_cases sys hr with h | ⟨hconfigures, h⟩
    · exact hs.quiet h
    · exact hs.sets hi h fun hagrees => applyConfigure_agrees hagrees
        (hfit.configure hask hconfigures _ hi)
  | reparent hask hi hr =>
    rcases reparentWindow_cases sys hr with h | ⟨hparent, h⟩
    · exact hs.quiet h
    · exact hs.sets hi h id
  | destroy hask hi => exact hs.destroy hsys _

end Server

namespace Process

variable {sys : Answers} {size : UInt32 → ℕ × ℕ}

/-- No request of the turn parts the size of a window and that of its surface. -/
def Fitting (sys : Answers) (p : Process) (wire : ℕ → UInt8) : Prop :=
  ∀ s q, p = running s → s.asked wire = some q → q.Fitting sys

theorem turn_sound (hsys : SurfaceService sys size) {s t : Server} {wire : ℕ → UInt8}
    (hfit : Fitting sys (running s) wire) (hs : s.Sound size) (hturn : s.turn sys wire = running t) :
    t.Sound size := by
  have hassembly : ∀ a, Server.Sound size { s with assembly := a } := fun a =>
    ⟨⟨hs.fits.windows, hs.fits.pixmaps, hs.fits.calls⟩, hs.fifteen⟩
  unfold Server.turn at hturn
  rcases Server.handle_cases sys s wire with ⟨-, h⟩ | ⟨code, h⟩ | ⟨a, b, u, -, h, hquiet⟩
    | ⟨a, -, hask, h⟩ <;> rw [h] at hturn
  · obtain rfl := Process.running.inj hturn
    refine Server.Sound.answer hsys ?_
    rcases Server.nativeInput_cases sys s wire with hquiet | ⟨-, i, -, heq⟩
    · exact hs.quiet hquiet
    · rw [heq]
      exact (hs.quiet (Server.event_beside s _ _)).destroy hsys i
  · cases hturn
  · obtain rfl := Process.running.inj hturn
    exact Server.Sound.answer hsys ((hassembly a).quiet hquiet)
  · rcases hparse : Server.parseRequest { s with assembly := a } sys with _ | r <;>
      rw [hparse] at hturn
    · cases hturn
    · obtain rfl := Process.running.inj hturn
      have hhandled := (Server.parseRequest_accounts sys { s with assembly := a }).1 r hparse
      exact Server.Sound.answer hsys (hhandled.sound hsys (hassembly a) (hfit s _ rfl hask))

theorem sound_start (size : UInt32 → ℕ × ℕ) : ({} : Server).Sound size := by
  have hsurface : ∀ i, (({} : Server).window i).surfaceHandle = 0 := fun i => by
    show read32 (fun _ => 0) _ = 0
    simp [read32, LittleEndian.load]
  have hpixmap : ∀ p, ((({} : Server).pixmaps p).Agrees size) := fun p hused => by cases hused
  exact ⟨⟨fun i _ hne => absurd (hsurface i) hne, hpixmap, fun _ hc => absurd hc List.not_mem_nil⟩,
    read8_eq _ _⟩

/-- In a run that keeps the sizes together, windows have the size of their surfaces, and every pixel
a call names lies in its surface. -/
theorem drawing_in_surfaces (sys : Answers) (size : UInt32 → ℕ × ℕ)
    (hsys : SurfaceService sys size) (wires : List (ℕ → UInt8))
    (hfit : Machine.Meets (step sys) (Fitting sys) (running {}) wires) :
    ∀ s, run sys (running {}) wires = running s →
      (∀ i, i < windowLimit → (s.window i).used ≠ 0 → (s.window i).Backed →
        size (s.window i).surfaceHandle
          = (Server.clampedWidth (s.window i), Server.clampedHeight (s.window i)))
      ∧ ∀ c ∈ s.calls, c.Inside size := by
  have hsound : ∀ s, run sys (running {}) wires = running s → s.Sound size := by
    refine Machine.run_inv_of_meets (step sys) (I := fun p => ∀ s, p = running s → s.Sound size)
      (fun p wire hp hok t ht => ?_) wires _ (fun s hs => ?_) hfit
    · rcases p with s | code | _
      · exact turn_sound hsys hok (hp s rfl) ht
      · cases ht
      · cases ht
    · obtain rfl := Process.running.inj hs
      exact sound_start size
  intro s hs
  refine ⟨fun i hi hused hbacked => ?_, (hsound s hs).fits.calls⟩
  have hne : i ≠ 15 := fun heq => hused (heq ▸ (hsound s hs).fifteen)
  have hlt : i < 15 := by
    simp only [windowLimit] at hi
    omega
  exact (hsound s hs).fits.windows i hlt hbacked.1 hbacked.2

def numberedSize (surface : UInt32) : ℕ × ℕ :=
  ((surface.toNat - 1) / 65536, (surface.toNat - 1) % 65536)

def surfaceKernel : Answers
  | .serviceOpen _ :: _ => 1
  | .surfaceCreate _ width height :: _ =>
    if width < 32768 ∧ height < 65535 then UInt64.ofNat (width * 65536 + height + 1) else failure
  | .handleQuery surface 0 :: _ => UInt64.ofNat (numberedSize surface).1
  | .handleQuery surface 1 :: _ => UInt64.ofNat (numberedSize surface).2
  | _ => failure

theorem numbered_toNat {width height : ℕ} (h : width < 32768 ∧ height < 65535) :
    (UInt64.ofNat (width * 65536 + height + 1)).toNat = width * 65536 + height + 1 :=
  UInt64.toNat_ofNat_of_lt' (by simp only [UInt64.size]; omega)

theorem surfaceKernel_service : SurfaceService surfaceKernel numberedSize where
  distinct factory width height calls := by
    by_cases h : width < 32768 ∧ height < 65535
    · have hnat := numbered_toNat h
      have hanswer : surfaceKernel (.surfaceCreate factory width height :: calls)
          = UInt64.ofNat (width * 65536 + height + 1) := if_pos h
      rw [hanswer]
      refine ⟨fun heq => ?_, fun heq => ?_⟩ <;> rw [heq] at hnat
      · simp at hnat
      · simp at hnat
        omega
    · have hanswer : surfaceKernel (.surfaceCreate factory width height :: calls) = failure :=
        if_neg h
      rw [hanswer]
      decide
  created factory width height calls hne hle := by
    have h : width < 32768 ∧ height < 65535 := by
      by_contra h
      exact hne (if_neg h)
    show numberedSize (if _ then _ else _ : UInt64).toUInt32 = _
    rw [if_pos h]
    have hnat : (UInt64.ofNat (width * 65536 + height + 1)).toUInt32.toNat
        = width * 65536 + height + 1 := by
      rw [UInt64.toNat_toUInt32, numbered_toNat h]
      omega
    unfold numberedSize
    refine Prod.ext ?_ ?_ <;> dsimp only <;> omega
  measured surface calls calls' := by
    have hlt := surface.toNat_lt
    refine .inr (.inr (Prod.ext ?_ ?_))
    · show _ = (UInt64.ofNat (numberedSize surface).1).toNat
      unfold numberedSize
      rw [UInt64.toNat_ofNat_of_lt' (by simp only [UInt64.size]; omega)]
    · show _ = (UInt64.ofNat (numberedSize surface).2).toNat
      unfold numberedSize
      rw [UInt64.toNat_ofNat_of_lt' (by simp only [UInt64.size]; omega)]
  eighth calls hne := absurd rfl hne

def mapRecord (client id : UInt32) : ℕ → UInt8 :=
  requestRecord client 8 (write32 (write16 (write8 (fun _ => 0) 0 Opcode.mapWindow) 2 2) 4 id)

def widenRecord (client id width : UInt32) : ℕ → UInt8 :=
  requestRecord client 16 (write32 (write16 (write32 (write16 (write8 (fun _ => 0) 0
    Opcode.configureWindow) 2 4) 4 id) 8 4) 12 width)

/-- A request is fitting that neither resizes a window nor attaches a surface, and creates none
without a record for it. -/
theorem fitting_of_opcode {s : Server} (hfree : (s.window 0).used = 0
      ∨ s.payload 0 ≠ Opcode.createWindow) (hconfigure : s.payload 0 ≠ Opcode.configureWindow)
    (hattach : s.payload 0 ≠ Opcode.attachSurface) : s.Fitting sys where
  create hask _ _ := ⟨0, by omega, hfree.resolve_right fun h => h hask.opcode⟩
  configure hask := absurd hask.opcode hconfigure
  attach hask := absurd hask.opcode hattach

theorem fitting_of_asked {p : Process} {wire : ℕ → UInt8} {opcode : UInt8} {used : UInt8}
    (h : (p.asked wire).map (fun q => (q.payload 0, (q.window 0).used)) = some (opcode, used))
    (hfree : used = 0 ∨ opcode ≠ Opcode.createWindow) (hconfigure : opcode ≠ Opcode.configureWindow)
    (hattach : opcode ≠ Opcode.attachSurface) : p.Fitting sys wire := by
  rintro s q rfl hq
  have hpair : (q.payload 0, (q.window 0).used) = (opcode, used) := by
    simpa [asked, server, hq] using h
  obtain ⟨rfl, rfl⟩ := Prod.mk.inj hpair
  exact fitting_of_opcode hfree hconfigure hattach

/-- A client's first window, shown. -/
theorem drawing_in_surfaces_map :
    ∃ s, run surfaceKernel (running {}) [createRecord 2 0x400001, mapRecord 2 0x400001] = running s
      ∧ (s.window 0).surfaceHandle = 655371
      ∧ (∀ i, i < windowLimit → (s.window i).used ≠ 0 → (s.window i).Backed →
        numberedSize (s.window i).surfaceHandle
          = (Server.clampedWidth (s.window i), Server.clampedHeight (s.window i)))
      ∧ ∀ c ∈ s.calls, c.Inside numberedSize := by
  have hfitting : Machine.Meets (step surfaceKernel) (Fitting surfaceKernel) (running {})
      [createRecord 2 0x400001, mapRecord 2 0x400001] := by
    refine ⟨?_, ?_, trivial⟩
    · exact @fitting_of_asked _ _ _ Opcode.createWindow 0 (by decide +kernel) (by decide)
        (by decide) (by decide)
    · exact @fitting_of_asked _ _ _ Opcode.mapWindow 1 (by decide +kernel) (by decide) (by decide)
        (by decide)
  have hstate : (run surfaceKernel (running {}) [createRecord 2 0x400001,
      mapRecord 2 0x400001]).server.map (fun s => (s.window 0).surfaceHandle) = some 655371 := by
    decide +kernel
  rcases hrun : run surfaceKernel (running {}) [createRecord 2 0x400001, mapRecord 2 0x400001]
    with s | code | _ <;> rw [hrun] at hstate
  · exact ⟨s, rfl, by simpa [server] using hstate,
      drawing_in_surfaces _ _ surfaceKernel_service _ hfitting s hrun⟩
  · cases hstate
  · cases hstate

/-- A window that is shown may be resized, and keeps its surface. -/
theorem drawing_not_in_surfaces :
    ¬∀ (sys : Answers) (size : UInt32 → ℕ × ℕ), SurfaceService sys size →
      ∀ (wires : List (ℕ → UInt8)) s, run sys (running {}) wires = running s →
        (∀ i, i < windowLimit → (s.window i).used ≠ 0 → (s.window i).Backed →
          size (s.window i).surfaceHandle
            = (Server.clampedWidth (s.window i), Server.clampedHeight (s.window i)))
        ∧ ∀ c ∈ s.calls, c.Inside size := by
  intro h
  have hstate : (run surfaceKernel (running {}) [createRecord 2 0x400001, mapRecord 2 0x400001,
      widenRecord 2 0x400001 20]).server.map (fun s => ((s.window 0).used,
        (s.window 0).surfaceHandle, Server.clampedWidth (s.window 0))) = some (1, 655371, 20) := by
    decide +kernel
  rcases hrun : run surfaceKernel (running {}) [createRecord 2 0x400001, mapRecord 2 0x400001,
      widenRecord 2 0x400001 20] with s | code | _ <;> rw [hrun] at hstate
  · obtain ⟨hused, hsurface, hwidth⟩ : (s.window 0).used = 1 ∧ (s.window 0).surfaceHandle = 655371
        ∧ Server.clampedWidth (s.window 0) = 20 := by
      simpa [server] using hstate
    have hsize := (h _ _ surfaceKernel_service _ s hrun).1 0 (by decide) (by rw [hused]; decide)
      ⟨by rw [hsurface]; decide, by rw [hsurface]; decide⟩
    rw [hsurface, hwidth] at hsize
    have hten : (numberedSize 655371).1 = 20 := congrArg Prod.fst hsize
    exact absurd hten (by decide)
  · cases hstate
  · cases hstate

end Process

end DemonX

end DemonOS
