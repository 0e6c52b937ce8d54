import Mathlib.Data.List.TakeWhile
import DemonOS.Proofs.DemonX.SurfaceSize

/-!
# Windows are not empty where their sizes are not cut to zero

`ConfigureWindow` looks whether a width or height is zero before it cuts it to 16 bits. The windows in
use have a width and a height as long as no multiple of 65536 is asked for
(`Process.windows_sized`). The last two window records share their bytes with reply handles: the last
has to stay free, and the one before it must have a size where the handle of the first client puts it
into use.
-/

namespace DemonOS

namespace DemonX

def Window.size (w : Window) : UInt16 × UInt16 := (w.width, w.height)

structure Window.Sized (w : Window) : Prop where
  width : w.width ≠ 0
  height : w.height ≠ 0

theorem Window.Sized.congr {w v : Window} (h : w.Sized) (hsize : v.size = w.size) : v.Sized := by
  obtain ⟨hwidth, hheight⟩ := Prod.mk.inj hsize
  exact ⟨hwidth ▸ h.width, hheight ▸ h.height⟩

namespace Server

variable {s t : Server} {sys : Answers} {K : EditKind → Prop}

/-! ## Edits -/

theorem setWindow_size {i : ℕ} {w : Window} (hw : w.size = (s.window i).size) (j : ℕ) :
    ((s.setWindow i w).window j).size = (s.window j).size := by
  rw [window_setWindow]
  split_ifs with hj
  · rw [hw, hj]
  · rfl

theorem size_of_extent {w v : Window} (h : w.extent = v.extent) : w.size = v.size := by
  injection h with hwidth hheight
  exact Prod.ext hwidth hheight

theorem setReplyHandle_size (s : Server) (c : ℕ) (handle : UInt64) {i : ℕ} (hi : i < 15) :
    ((s.setReplyHandle c handle).window i).size = (s.window i).size :=
  size_of_extent (setReplyHandle_extent s c handle hi)

theorem Edit.size {k : EditKind} (h : Edit sys k s t) {i : ℕ} (hi : i < 15) :
    (t.window i).size = (s.window i).size := by
  cases h with
  | quiet hq => rw [hq.window]
  | draw _ hq => rw [hq.window]
  | link _ => exact setReplyHandle_size s _ _ hi
  | adjust _ hextent => exact setWindow_size (size_of_extent hextent) i
  | surface _ hwidth hheight _ => exact setWindow_size (Prod.ext hwidth hheight) i
  | @pixmap _ j p _ => exact congrArg Window.size (rfl : (s.setPixmap j p).window i = s.window i)
  | @retire _ j => exact setWindow_size (w := { s.window j with used := 0 }) rfl i
  | @release _ client => exact congrArg Window.size (releaseRoot_window s client i)

theorem Path.size (h : Path sys K s t) {i : ℕ} (hi : i < 15) :
    (t.window i).size = (s.window i).size :=
  h.keeps (I := fun u => (u.window i).size = (s.window i).size)
    (fun _ _ _ _ he ha => (he.size hi).trans ha) rfl

/-! ## What a turn keeps -/

/-- What the server keeps between two turns: the windows have a size, and the last record is free. -/
structure Filled (s : Server) : Prop where
  windows : ∀ i, i < 15 → (s.window i).used ≠ 0 → (s.window i).Sized
  fifteen : (s.window 15).used = 0

/-- Windows come into use and change their size with that of a window in use. -/
theorem Filled.mono (h : s.Filled) (hwindow : ∀ i, i < 15 → (t.window i).used ≠ 0 →
      (s.window i).used ≠ 0 ∧ (t.window i).size = (s.window i).size)
    (hfifteen : (t.window 15).used = 0) : t.Filled :=
  ⟨fun i hi hused => (h.windows i hi (hwindow i hi hused).1).congr (hwindow i hi hused).2, hfifteen⟩

theorem Filled.congr (h : s.Filled) (hwindow : ∀ i, t.window i = s.window i) : t.Filled :=
  h.mono (fun i _ hused => ⟨hwindow i ▸ hused, by rw [hwindow]⟩) (by rw [hwindow, h.fifteen])

theorem Filled.quiet (h : s.Filled) (hq : Quiet s t) : t.Filled := h.congr hq.window

theorem Filled.plain (h : s.Filled) (hpath : Path sys EditKind.plain s t) : t.Filled :=
  h.mono (fun i hi hused => ⟨hpath.used sys i ▸ hused, hpath.size hi⟩)
    ((hpath.used sys 15).trans h.fifteen)

theorem Filled.sets (h : s.Filled) {i : ℕ} {w : Window} (hset : Sets i w s t) (hi : i < 15)
    (hw : w.used ≠ 0 → w.Sized) : t.Filled := by
  refine ⟨fun j hj hused => ?_, ?_⟩
  · rw [hset.window] at hused ⊢
    split_ifs at hused ⊢
    · exact hw hused
    · exact h.windows j hj hused
  · rw [hset.window, if_neg (by omega), h.fifteen]

theorem Filled.slot (h : s.Filled) {id : UInt32} {i : ℕ} (hi : s.findWindow id = some i) :
    i < 15 ∧ (s.window i).Sized := by
  obtain ⟨hlt, hused, -⟩ := findWindow_some hi
  have hne : i ≠ 15 := fun heq => hused (heq ▸ h.fifteen)
  have hlimit : i < 15 := by
    simp only [windowLimit] at hlt
    omega
  exact ⟨hlimit, h.windows i hlimit hused⟩

theorem Filled.destroy (h : s.Filled) (sys : Answers) (i : ℕ) :
    (s.destroyWindowState sys i).Filled := by
  have hstays : ∀ j, ((s.destroyWindowState sys i).window j).used ≠ 0 →
      (s.destroyWindowState sys i).window j = s.window j := fun j hused => by
    rw [destroyWindowState_window] at hused ⊢
    split_ifs at hused ⊢
    · exact absurd rfl hused
    · rfl
  refine h.mono (fun j _ hused => ⟨?_, by rw [hstays j hused]⟩) ?_
  · rw [← hstays j hused]
    exact hused
  · by_contra hused
    rw [hstays 15 hused] at hused
    exact hused h.fifteen

/-! ## Sending -/

def SparesLast (sys : Answers) : Prop := ∀ calls, sys (.connectReply 8 :: calls) ≠ failure →
  handleByte (sys (.connectReply 8 :: calls)) 5 = 0

/-- A packet for the first client goes out when the record its handle lies in has a size, or its
handle leaves the record free. -/
def SendsSized (sys : Answers) (s : Server) : Prop :=
  s.outgoing.clientId = 1 → (s.window 14).Sized
    ∨ ∀ calls, sys (.connectReply 1 :: calls) ≠ failure →
      handleByte (sys (.connectReply 1 :: calls)) 1 = 0

theorem releaseClient_used (sys : Answers) (s : Server) {client : UInt32} (hclient : client ≠ 0)
    (hnot : client.toNat - 1 ≠ 0) (hused : ((s.releaseClient sys client).window 14).used ≠ 0) :
    (s.window 14).used ≠ 0 := by
  have hclose : ((s.closeClient sys client).window 14).used ≠ 0 → (s.window 14).used ≠ 0 := by
    intro hused hfree
    have hplace := congrArg Place.used (closeClient_place sys s client 14)
    split_ifs at hplace
    · exact hused hplace
    · exact hused (hplace.trans hfree)
  rw [releaseClient_eq sys s hclient, releaseReplyHandle] at hused
  split_ifs at hused with hslot
  · exact hclose hused
  · rw [marks_fourteen, if_neg hnot, (closeReply_quiet sys _ _).window] at hused
    exact hclose hused

/-- The release of a client leaves what it does not destroy, though a delivery has failed before. -/
theorem Filled.release (h : s.Filled) {client : UInt32} (hclient : client ≠ 0)
    (hwindow : ∀ i, i < 14 → t.window i = s.window i)
    (hfourteen : client.toNat - 1 ≠ 0 → (t.window 14).used ≠ 0 → (t.window 14).Sized)
    (hfifteen : client.toNat - 1 ≠ 7 → (t.window 15).used = 0) :
    (t.releaseClient sys client).Filled := by
  have hsize : ∀ i, i < 15 → ((t.releaseClient sys client).window i).size = (t.window i).size :=
    fun i hi => (releaseClient_path sys t client).size hi
  refine ⟨fun i hi hused => ?_, marks_fifteen.released (by omega) hclient hfifteen⟩
  by_cases hlast : i = 14
  · subst hlast
    by_cases hfirst : client.toNat - 1 = 0
    · exact absurd (marks_fourteen.released (by omega) hclient fun hne => absurd hfirst hne) hused
    · exact (hfourteen hfirst (releaseClient_used sys t hclient hfirst hused)).congr (hsize 14 hi)
  · have hi14 : i < 14 := by omega
    have hbefore : (s.window i).used ≠ 0 := by
      intro hfree
      have hplace := congrArg Place.used (releaseClient_place sys hclient hwindow hi14)
      split_ifs at hplace
      · exact hused hplace
      · exact hused (hplace.trans hfree)
    exact (h.windows i hi hbefore).congr ((hsize i hi).trans (by rw [hwindow i hi14]))

theorem linking_sized {client : UInt32} {good : Bool}
    (hpath : Path sys (EditKind.linking client good) s t)
    (hlink : client.toNat - 1 ≠ 0 ∨ (s.window 14).Sized ∨ (good = true ∧ ∀ calls,
      sys (.connectReply client :: calls) ≠ failure →
        handleByte (sys (.connectReply client :: calls)) 1 = 0))
    (hs : (s.window 14).used ≠ 0 → (s.window 14).Sized) :
    (t.window 14).used ≠ 0 → (t.window 14).Sized := by
  have hsize := hpath.size (i := 14) (by omega)
  rcases hlink with hother | hsized | ⟨hgood, hbyte⟩
  · refine linking_keeps (I := fun u => (u.window 14).used ≠ 0 → (u.window 14).Sized) hpath
      (fun a b hq ha hused => ?_) (fun a handle _ ha hused => ?_) hs
    · rw [hq.window] at hused ⊢
      exact ha hused
    · rw [marks_fourteen, if_neg hother] at hused
      exact (ha hused).congr (setReplyHandle_size a _ _ (by omega))
  · exact fun _ => hsized.congr hsize
  · intro hused
    refine (hs ?_).congr hsize
    intro hfree
    refine hused (linking_keeps (I := fun u => (u.window 14).used = 0) hpath
      (fun a b hq ha => by rw [hq.window, ha]) (fun a handle hhandle ha => ?_) hfree)
    rw [marks_fourteen]
    split_ifs
    · rcases hhandle with rfl | ⟨⟨calls, rfl⟩, hne⟩
      · simp [handleByte]
      · exact hbyte calls (hne hgood)
    · exact ha

theorem Filled.send (h : s.Filled) (hsys : SparesLast sys) (hsend : s.SendsSized sys) :
    (s.sendOutgoing sys).Filled := by
  have hpath : Path sys (EditKind.linking s.outgoing.clientId
      (s.deliver sys s.outgoing.clientId).1) s (s.deliver sys s.outgoing.clientId).2 :=
    deliver_path s s.outgoing.clientId
  have hwindow := fun i (hi : i < 14) => linking_window hpath hi
  have hfourteen := h.windows 14 (by omega)
  have hnat : ∀ n : UInt32, s.outgoing.clientId.toNat = n.toNat → s.outgoing.clientId = n :=
    fun n hn => UInt32.toNat_inj.1 hn
  rcases sendOutgoing_cases sys s with heq | ⟨hclient, hslot, ⟨hsent, heq⟩ | ⟨hfail, heq⟩⟩ <;>
    rw [heq]
  · exact h
  · rw [hsent] at hpath
    have hpos : s.outgoing.clientId.toNat ≠ 0 := fun h => hclient (hnat 0 h)
    have hlast := linking_sized hpath (by
      by_cases hone : s.outgoing.clientId = 1
      · rcases hsend hone with hsized | hbyte
        · exact .inr (.inl hsized)
        · exact .inr (.inr ⟨rfl, fun calls hne => by
            rw [hone] at hne ⊢
            exact hbyte calls hne⟩)
      · refine .inl fun hzero => hone (hnat 1 ?_)
        have hone : (1 : UInt32).toNat = 1 := rfl
        omega) hfourteen
    refine ⟨fun i hi hused => ?_, marks_fifteen.delivered (fun calls hc hne => ?_) hpath h.fifteen⟩
    · by_cases hi14 : i = 14
      · exact hi14 ▸ hlast (hi14 ▸ hused)
      · rw [hwindow i (by omega)] at hused ⊢
        exact h.windows i hi hused
    · have height : s.outgoing.clientId = 8 := hnat 8 (show _ = 8 by omega)
      rw [height] at hne ⊢
      exact hsys calls hne
  · exact h.release hclient hwindow (fun hne => linking_sized hpath (.inl hne) hfourteen)
      fun hne => marks_fifteen.elsewhere hpath hne h.fifteen

theorem Filled.answer {r : Bool × Server} (h : r.2.Filled) (hsys : SparesLast sys)
    (hsend : r.1 = true → r.2.SendsSized sys) : (Server.answer sys r).Filled := by
  rcases answer_cases sys r with heq | ⟨hb, heq⟩ <;> rw [heq]
  · exact h
  · exact h.send hsys (hsend hb)

/-! ## Requests -/

def configuredValue (payload : ℕ → UInt8) (mask bit : UInt16) : UInt32 :=
  read32 payload
    (12 + 4 * ((configureBits.takeWhile (· ≠ bit)).filter fun b => mask &&& b ≠ 0).length)

def configureFold (payload : ℕ → UInt8) (l : List UInt16) (r : Window × ℕ) : Window × ℕ :=
  l.foldl (fun r bit => (configureValue bit (read32 payload r.2) r.1, r.2 + 4)) r

theorem configureFold_offset (payload : ℕ → UInt8) (l : List UInt16) :
    ∀ r, (configureFold payload l r).2 = r.2 + 4 * l.length := by
  induction l with
  | nil =>
    intro r
    rfl
  | cons bit l ih =>
    intro r
    refine (ih _).trans ?_
    simp only [List.length_cons]
    omega

theorem configureFold_other {α : Type} (f : Window → α) {bit : UInt16}
    (hf : ∀ b v w, b ≠ bit → f (configureValue b v w) = f w) (payload : ℕ → UInt8)
    {l : List UInt16} (hl : bit ∉ l) : ∀ r, f (configureFold payload l r).1 = f r.1 := by
  induction l with
  | nil =>
    intro r
    rfl
  | cons b l ih =>
    intro r
    rw [List.mem_cons, not_or] at hl
    exact (ih hl.2 _).trans (hf b _ _ (Ne.symm hl.1))

theorem applyConfigure_field {α : Type} (f : Window → α) (bit : UInt16) {l : List UInt16}
    (hbits : configureBits = configureBits.takeWhile (· ≠ bit) ++ bit :: l) (hl : bit ∉ l)
    (hf : ∀ b v w, b ≠ bit → f (configureValue b v w) = f w) (payload : ℕ → UInt8)
    (mask : UInt16) (w : Window) :
    ∃ v, f v = f w ∧ f (applyConfigure payload mask w)
      = if mask &&& bit ≠ 0 then f (configureValue bit (configuredValue payload mask bit) v)
        else f w := by
  have hbefore : bit ∉ configureBits.takeWhile (· ≠ bit) := fun hmem => by
    simpa using List.mem_takeWhile_imp hmem
  have hfilter : ∀ {m : List UInt16}, bit ∉ m → bit ∉ m.filter fun b => mask &&& b ≠ 0 :=
    fun h hmem => h (List.mem_filter.1 hmem).1
  refine ⟨(configureFold payload ((configureBits.takeWhile (· ≠ bit)).filter
    fun b => mask &&& b ≠ 0) (w, 12)).1, configureFold_other f hf payload (hfilter hbefore) _, ?_⟩
  have hsplit : applyConfigure payload mask w = (configureFold payload (l.filter
      fun b => mask &&& b ≠ 0) (configureFold payload ([bit].filter fun b => mask &&& b ≠ 0)
        (configureFold payload ((configureBits.takeWhile (· ≠ bit)).filter
          fun b => mask &&& b ≠ 0) (w, 12)))).1 := by
    unfold applyConfigure configureFold
    rw [← List.foldl_append, ← List.foldl_append, ← List.filter_append, ← List.filter_append,
      List.singleton_append, ← hbits]
  rw [hsplit, configureFold_other f hf payload (hfilter hl)]
  split_ifs with hmask
  · rw [List.filter_singleton, decide_eq_true hmask]
    show f (configureValue bit (read32 payload (configureFold payload _ (w, 12)).2) _) = _
    rw [configureFold_offset]
    rfl
  · rw [List.filter_singleton, decide_eq_false hmask]
    exact configureFold_other f hf payload (hfilter hbefore) _

def Cut (payload : ℕ → UInt8) (mask bit : UInt16) : Prop :=
  mask &&& bit ≠ 0 ∧ configuredValue payload mask bit ≠ 0
    ∧ (configuredValue payload mask bit).toUInt16 = 0

theorem applyConfigure_width (payload : ℕ → UInt8) (mask : UInt16) {w : Window} (hw : w.width ≠ 0) :
    (applyConfigure payload mask w).width = 0 ↔ Cut payload mask 4 := by
  obtain ⟨v, hv, hwidth⟩ := applyConfigure_field Window.width 4 (l := [8, 16, 32, 64])
    (by decide) (by decide) (fun b value w hb => by
      unfold configureValue
      split_ifs with h1 h2 h4 h8 h16 <;> first | rfl | exact absurd h4.1 hb) payload mask w
  rw [hwidth]
  unfold Cut configureValue
  split_ifs with hmask h1 h2 h4 <;> simp_all

theorem applyConfigure_height (payload : ℕ → UInt8) (mask : UInt16) {w : Window}
    (hw : w.height ≠ 0) : (applyConfigure payload mask w).height = 0 ↔ Cut payload mask 8 := by
  obtain ⟨v, hv, hheight⟩ := applyConfigure_field Window.height 8 (l := [16, 32, 64])
    (by decide) (by decide) (fun b value w hb => by
      unfold configureValue
      split_ifs with h1 h2 h4 h8 h16 <;> first | rfl | exact absurd h8.1 hb) payload mask w
  rw [hheight]
  unfold Cut configureValue
  split_ifs with hmask h1 h2 h4 h8 <;> simp_all

/-- A request cuts no size to zero, creates no window in the last record, and moves no focus whose
notice would give an empty record away. -/
structure Sizing (sys : Answers) (s : Server) : Prop where
  create : s.Asks Opcode.createWindow 32 → s.field32 8 = rootWindow →
    (s.allocateWindow (s.field32 4) s.incoming.clientId).isSome →
    ∃ i, i < 15 ∧ (s.window i).used = 0
  configure : s.Asks Opcode.configureWindow s.incoming.payloadLength.toNat → s.Configures →
    (s.findWindow (s.field32 4)).isSome →
    ¬Cut s.payload (s.field16 8) 4 ∧ ¬Cut s.payload (s.field16 8) 8
  focus : s.Asks Opcode.setInputFocus 12 → ∀ i, s.findWindow (s.field32 4) = some i →
    (s.window i).mapped ≠ 0 → s.payload 1 ≤ 2 → s.findWindow s.focusedWindow ≠ some i →
    (s.focusNotify (s.findWindow s.focusedWindow) 10).1 = true →
    SendsSized sys (s.focusNotify (s.findWindow s.focusedWindow) 10).2

theorem Filled.create (h : s.Filled) (hspare : ∃ i, i < 15 ∧ (s.window i).used = 0) {i : ℕ}
    {w : Window} (hfree : Table.firstIndex windowLimit (fun i => (s.window i).used = 0) = some i)
    (hw : w.used = 0 ∨ (w.width ≠ 0 ∧ w.height ≠ 0)) (hset : Sets i w s t) : t.Filled := by
  obtain ⟨-, -, hfirst⟩ := Table.firstIndex_eq_some.1 hfree
  have hi : i < 15 := by
    obtain ⟨k, hk, hkfree⟩ := hspare
    by_contra hge
    have := hfirst k (by omega)
    simp [hkfree] at this
  refine h.sets hset hi fun hused => ?_
  obtain ⟨hwidth, hheight⟩ := hw.resolve_left hused
  exact ⟨hwidth, hheight⟩

theorem Handled.filled (hsys : SparesLast sys) {r : Bool × Server}
    (h : Handled sys s (s.field32 4) r) (hs : s.Filled) (hsizing : s.Sizing sys) : r.2.Filled := by
  cases h with
  | plain h => exact hs.plain h
  | create hask =>
    rcases createWindow_cases s (s.field32 4) with h | ⟨i, w, hlength, hroot, halloc, hfree, -, hw, h⟩
    · exact hs.quiet h
    · rw [hlength] at hask
      exact hs.create (hsizing.create hask hroot halloc) hfree (hw.imp_right fun h => h.2.2) h
  | elect hroot =>
    rcases selectInputRoot_cases s (s.field32 4) with h | ⟨mask, client, owner, h⟩
    · exact hs.quiet h
    · rw [h]
      exact hs.congr fun _ => rfl
  | grab _ _ => exact hs.congr (passiveGrab_aside (P := fun _ => True) s _ _).window
  | attach hask =>
    rcases attachSurface_cases sys s (s.field32 4) with h | ⟨-, i, hi, h⟩
    · exact hs.quiet h
    · obtain ⟨hlt, hsized⟩ := hs.slot hi
      exact hs.sets h hlt fun _ => hsized.congr rfl
  | kill hask =>
    rcases killClient_cases sys s (s.field32 4) with h | ⟨howner, h⟩
    · exact hs.quiet h
    · rw [h]
      exact hs.release howner (fun _ _ => rfl) (fun _ => hs.windows 14 (by omega))
        fun _ => hs.fifteen
  | focus hask =>
    rcases setInputFocus_cases sys s (s.findWindow (s.field32 4)) (s.field32 4)
      with h | ⟨i, hi, hmapped, hvalue, hother, h⟩
    · exact hs.quiet h
    · have hnotify : Quiet s (s.focusNotify (s.findWindow s.focusedWindow) 10).2 :=
        focusNotify_beside s _ _
      rw [h]
      exact (Filled.answer (hs.quiet hnotify) hsys
        (hsizing.focus hask i hi hmapped hvalue hother)).quiet (focusOn_quiet sys _ i)
  | configure hask hi hr =>
    rcases configureWindow_cases sys hr with h | ⟨hconfigures, h⟩
    · exact hs.quiet h
    · obtain ⟨hlt, hsized⟩ := hs.slot hi
      obtain ⟨hwidth, hheight⟩ :=
        hsizing.configure hask hconfigures (Option.isSome_iff_exists.2 ⟨_, hi⟩)
      refine hs.sets h hlt fun _ => ⟨fun hzero => hwidth ?_, fun hzero => hheight ?_⟩
      · exact (applyConfigure_width _ _ hsized.width).1 hzero
      · exact (applyConfigure_height _ _ hsized.height).1 hzero
  | reparent hask hi hr =>
    rcases reparentWindow_cases sys hr with h | ⟨hparent, h⟩
    · exact hs.quiet h
    · obtain ⟨hlt, hsized⟩ := hs.slot hi
      exact hs.sets h hlt fun _ => hsized.congr rfl
  | destroy hask hi => exact hs.destroy sys _

end Server

namespace Process

variable {sys : Answers}

/-- A turn cuts no size to zero, and no packet it sends puts an empty record into use. -/
structure Sizing (sys : Answers) (p : Process) (wire : ℕ → UInt8) : Prop where
  request : ∀ s q, p = running s → s.asked wire = some q → q.Sizing sys
  send : ∀ s r, p = running s → s.handle sys wire = some (.ok r) → r.1 = true → r.2.SendsSized sys

theorem turn_filled (hsys : Server.SparesLast sys) {s t : Server} {wire : ℕ → UInt8}
    (hsizing : Sizing sys (running s) wire) (hs : s.Filled) (hturn : s.turn sys wire = running t) :
    t.Filled := by
  have hassembly : ∀ a, Server.Filled { s with assembly := a } := fun a => hs.congr fun _ => rfl
  have hsend : ∀ r : Bool × Server, s.handle sys wire = some (.ok r) → r.2.Filled →
      t.Filled := fun r h hr => by
    have hrunning : s.turn sys wire = running (Server.answer sys r) := by rw [Server.turn, h]
    obtain rfl := Process.running.inj (hrunning.symm.trans hturn)
    exact hr.answer hsys (hsizing.send s r rfl h)
  rcases Server.handle_cases sys s wire with ⟨-, h⟩ | ⟨code, h⟩ | ⟨a, b, u, -, h, hquiet⟩
    | ⟨a, -, hask, h⟩
  · refine hsend _ h ?_
    rcases Server.nativeInput_cases sys s wire with hquiet | ⟨-, i, -, heq⟩
    · exact hs.quiet hquiet
    · rw [heq]
      exact (hs.quiet (Server.event_beside s _ _)).destroy sys i
  · rw [Server.turn, h] at hturn
    cases hturn
  · exact hsend (b, u) h ((hassembly a).quiet hquiet)
  · rcases hparse : Server.parseRequest { s with assembly := a } sys with _ | r
    · rw [Server.turn, h, hparse] at hturn
      cases hturn
    · rw [hparse] at h
      have hhandled := (Server.parseRequest_accounts sys { s with assembly := a }).1 r hparse
      exact hsend r h (hhandled.filled hsys (hassembly a) (hsizing.request s _ rfl hask))

theorem filled_start : ({} : Server).Filled := by
  have hfree : ∀ i, (({} : Server).window i).used = 0 := fun i => read8_eq _ _
  exact ⟨fun i _ hused => absurd (hfree i) hused, hfree 15⟩

/-- In a run whose turns cut no size to zero every window in use has a width and a height, as it is
shown to the kernel's surfaces and to the compositor too. -/
theorem windows_sized (sys : Answers) (hsys : Server.SparesLast sys) (wires : List (ℕ → UInt8))
    (hsizing : Machine.Meets (step sys) (Sizing sys) (running {}) wires) :
    ∀ s, run sys (running {}) wires = running s →
      ∀ i, i < windowLimit → (s.window i).used ≠ 0 →
        ((s.window i).width ≠ 0 ∧ (s.window i).height ≠ 0)
          ∧ 0 < Server.clampedWidth (s.window i) ∧ 0 < Server.clampedHeight (s.window i) := by
  have hfilled : ∀ s, run sys (running {}) wires = running s → s.Filled := by
    refine Machine.run_inv_of_meets (step sys) (I := fun p => ∀ s, p = running s → s.Filled)
      (fun p wire hp hok t ht => ?_) wires _ (fun s hs => ?_) hsizing
    · rcases p with s | code | _
      · exact turn_filled hsys hok (hp s rfl) ht
      · cases ht
      · cases ht
    · obtain rfl := Process.running.inj hs
      exact filled_start
  intro s hs i hi hused
  have hne : i ≠ 15 := fun heq => hused (heq ▸ (hfilled s hs).fifteen)
  have hsized : (s.window i).Sized := (hfilled s hs).windows i (by
    simp only [windowLimit] at hi
    omega) hused
  have hpos : ∀ {n : UInt16} {limit : ℕ}, n ≠ 0 → 0 < limit → 0 < min n.toNat limit := by
    intro n limit hn hlimit
    exact lt_min (Nat.pos_of_ne_zero fun hzero => hn (UInt16.toNat_inj.1 hzero)) hlimit
  exact ⟨⟨hsized.width, hsized.height⟩, hpos hsized.width (by decide),
    hpos hsized.height (by decide)⟩

/-- A client's first window. -/
theorem windows_sized_create :
    ∃ s, run (fun _ => failure) (running {}) [createRecord 2 0x400001] = running s
      ∧ (s.window 0).used ≠ 0 ∧ ((s.window 0).width ≠ 0 ∧ (s.window 0).height ≠ 0)
      ∧ 0 < Server.clampedWidth (s.window 0) ∧ 0 < Server.clampedHeight (s.window 0) := by
  have hstate : (run (fun _ => failure) (running {}) [createRecord 2 0x400001]).server.map
      (fun s => (s.window 0).used) = some 1 := by decide +kernel
  rcases hrun : run (fun _ => failure) (running {}) [createRecord 2 0x400001] with s | code | _
  all_goals rw [hrun] at hstate
  · have hone : (s.window 0).used = 1 := Option.some.inj hstate
    have hused : (s.window 0).used ≠ 0 := by
      rw [hone]
      decide
    refine ⟨s, rfl, hused, windows_sized (fun _ => failure) (fun _ h => absurd rfl h)
      [createRecord 2 0x400001] ⟨⟨?_, ?_⟩, trivial⟩ s hrun 0 (by decide) hused⟩
    · rintro s q ⟨rfl⟩ hq
      have hop : (({} : Server).asked (createRecord 2 0x400001)).map (fun q => q.payload 0)
          = some Opcode.createWindow := by decide +kernel
      rw [hq] at hop
      obtain ⟨a, -, rfl⟩ := Server.asked_eq hq
      have hother : ∀ {opcode length}, opcode ≠ Opcode.createWindow →
          ¬Server.Asks { ({} : Server) with assembly := a } opcode length :=
        fun hne hask => hne (hask.opcode.symm.trans (Option.some.inj hop))
      exact ⟨fun _ _ _ => ⟨0, by decide, read8_eq _ _⟩, fun h => absurd h (hother (by decide)),
        fun h => absurd h (hother (by decide))⟩
    · rintro s q - - - -
      exact .inr fun _ h => absurd rfl h
  · exact nomatch hstate
  · exact nomatch hstate

/-- A client asks for a window that is 65536 pixels wide, and gets one without a width. -/
theorem windows_not_sized :
    ¬∀ (sys : Answers), Server.SparesLast sys → ∀ (wires : List (ℕ → UInt8)) s,
      run sys (running {}) wires = running s →
        ∀ i, i < windowLimit → (s.window i).used ≠ 0 →
          ((s.window i).width ≠ 0 ∧ (s.window i).height ≠ 0)
            ∧ 0 < Server.clampedWidth (s.window i) ∧ 0 < Server.clampedHeight (s.window i) := by
  intro h
  have hstate : (run (fun _ => failure) (running {}) [createRecord 2 0x400001,
      widenRecord 2 0x400001 0x10000]).server.map (fun s => ((s.window 0).used,
        (s.window 0).width)) = some (1, 0) := by decide +kernel
  rcases hrun : run (fun _ => failure) (running {}) [createRecord 2 0x400001,
      widenRecord 2 0x400001 0x10000] with s | code | _ <;> rw [hrun] at hstate
  · obtain ⟨hused, hwidth⟩ : (s.window 0).used = 1 ∧ (s.window 0).width = 0 := by
      simpa [server] using hstate
    exact (h _ (fun _ h => absurd rfl h) _ s hrun 0 (by decide) (by rw [hused]; decide)).1.1 hwidth
  · cases hstate
  · cases hstate

end Process

end DemonX

end DemonOS
