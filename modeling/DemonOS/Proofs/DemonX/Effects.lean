import DemonOS.DemonX.Main

/-!
# What the server keeps and does

The window records in memory, and the edits that every function of the server is made of.
-/

/-!
## The window records in memory

A window record reads back as it was written (`window_setWindow_self`), and no other record changes
(`window_setWindow_ne`). A reply handle lies on the last two records alone: on the last bytes of the
one in slot 14 and on all of the one in slot 15 (`window_setReplyHandle`).
-/

namespace DemonOS

namespace DemonX

/-! ### Fields of a byte buffer -/

section

variable (m : ℕ → UInt8) {a b n : ℕ} (v : ℕ)

theorem read8_store_of_disjoint (h : b + 1 ≤ a ∨ a + n ≤ b) :
    read8 (LittleEndian.store m a n v) b = read8 m b := by
  rw [read8, LittleEndian.load_store_of_disjoint m v h, read8]

theorem read16_store_of_disjoint (h : b + 2 ≤ a ∨ a + n ≤ b) :
    read16 (LittleEndian.store m a n v) b = read16 m b := by
  rw [read16, LittleEndian.load_store_of_disjoint m v h, read16]

theorem read32_store_of_disjoint (h : b + 4 ≤ a ∨ a + n ≤ b) :
    read32 (LittleEndian.store m a n v) b = read32 m b := by
  rw [read32, LittleEndian.load_store_of_disjoint m v h, read32]

end

theorem read8_store_self (m : ℕ → UInt8) (a : ℕ) (v : UInt8) :
    read8 (LittleEndian.store m a 1 v.toNat) a = v := read8_write8 m a v

theorem read16_store_self (m : ℕ → UInt8) (a : ℕ) (v : UInt16) :
    read16 (LittleEndian.store m a 2 v.toNat) a = v := read16_write16 m a v

theorem read32_store_self (m : ℕ → UInt8) (a : ℕ) (v : UInt32) :
    read32 (LittleEndian.store m a 4 v.toNat) a = v := read32_write32 m a v

theorem read8_eq (m : ℕ → UInt8) (a : ℕ) : read8 m a = m a := by
  simp [read8, LittleEndian.load]

theorem Window.load_store (w : Window) (m : ℕ → UInt8) (a : ℕ) :
    Window.load (w.store m a) a = w := by
  simp (disch := omega) only [Window.load, Window.store, write8, write16, write32,
    read8_store_of_disjoint, read16_store_of_disjoint, read32_store_of_disjoint, read8_store_self,
    read16_store_self, read32_store_self]

theorem Window.store_apply_of_disjoint (w : Window) (m : ℕ → UInt8) {a b : ℕ}
    (h : b < a ∨ a + 60 ≤ b) : w.store m a b = m b := by
  simp (disch := omega) only [Window.store, write8, write16, write32,
    LittleEndian.store_apply_of_disjoint]

theorem Window.load_congr {m m' : ℕ → UInt8} {a : ℕ} (h : ∀ b, a ≤ b → b < a + 60 → m b = m' b) :
    Window.load m a = Window.load m' a := by
  have hfield : ∀ k n, k + n ≤ 60 →
      LittleEndian.load m (a + k) n = LittleEndian.load m' (a + k) n := fun k n hk =>
    LittleEndian.load_congr fun b hb hlt => h b (by omega) (by omega)
  have hfirst := hfield 0 4 (by omega)
  rw [Nat.add_zero] at hfirst
  simp only [Window.load, read8, read16, read32, hfirst, hfield 4 4 (by omega),
    hfield 8 2 (by omega), hfield 10 2 (by omega), hfield 12 2 (by omega), hfield 14 2 (by omega),
    hfield 16 2 (by omega), hfield 18 2 (by omega), hfield 20 4 (by omega), hfield 24 4 (by omega),
    hfield 28 4 (by omega), hfield 32 4 (by omega), hfield 36 4 (by omega), hfield 40 4 (by omega),
    hfield 44 4 (by omega), hfield 48 4 (by omega), hfield 52 4 (by omega), hfield 56 1 (by omega),
    hfield 57 1 (by omega), hfield 58 1 (by omega)]

namespace Server

theorem address_windows (i : ℕ) : ServerTable.windows.layout.address i = 0x330080 + 60 * i := rfl

theorem address_replyHandles (c : ℕ) :
    ServerTable.replyHandles.layout.address c = 0x330400 + 8 * c := rfl

@[simp] theorem window_setWindow_self (s : Server) (i : ℕ) (w : Window) :
    (s.setWindow i w).window i = w := Window.load_store w s.memory _

theorem window_setWindow_ne (s : Server) {i j : ℕ} (w : Window) (h : j ≠ i) :
    (s.setWindow i w).window j = s.window j := by
  refine Window.load_congr fun b hb hlt => w.store_apply_of_disjoint s.memory ?_
  rw [address_windows] at *
  omega

theorem window_setWindow (s : Server) (i j : ℕ) (w : Window) :
    (s.setWindow i w).window j = if j = i then w else s.window j := by
  by_cases h : j = i
  · rw [if_pos h, h, window_setWindow_self]
  · rw [if_neg h, window_setWindow_ne s w h]

/-- The first fourteen records end before the reply handles. -/
theorem window_setReplyHandle (s : Server) {i c : ℕ} (hi : i < 14) (handle : UInt64) :
    (s.setReplyHandle c handle).window i = s.window i := by
  refine Window.load_congr fun b hb hlt =>
    LittleEndian.store_apply_of_disjoint s.memory handle.toNat ?_
  rw [address_windows] at *
  rw [address_replyHandles]
  omega

/-- The byte of client 1's handle that marks record 14 as used. -/
def fourteenth : ℕ := 0x330401

/-- The byte of client 8's handle that marks record 15 as used. -/
def fifteenth : ℕ := 0x33043D

theorem used_fourteen (s : Server) : (s.window 14).used = s.memory fourteenth :=
  read8_eq s.memory _

theorem used_fifteen (s : Server) : (s.window 15).used = s.memory fifteenth :=
  read8_eq s.memory _

end Server

end DemonX

/-!
## What the functions of the DemonX server do to its windows

Every function of the server is a path of edits, each of a kind: most leave windows, pixmaps and the
root selection alone, and only make system calls (`Quiet`); others draw, connect a client, change
what a window asks for, or give a window or client up. A proof about all runs looks at the kinds of
edits, and at the requests that do more.
-/

namespace DemonX

/-! ### Edits -/

def SystemCall.draws : SystemCall → Bool
  | .surfaceWrite .. => true
  | .readPixel .. => true
  | _ => false

/-- What links a window to the others. -/
structure Place where
  id : UInt32
  parent : UInt32
  used : UInt8
  ownerClient : UInt32

/-- What decides where drawing goes. -/
structure Extent where
  width : UInt16
  height : UInt16
  surfaceHandle : UInt32

def Window.place (w : Window) : Place := ⟨w.id, w.parent, w.used, w.ownerClient⟩

def Window.extent (w : Window) : Extent := ⟨w.width, w.height, w.surfaceHandle⟩

namespace Server

/-- What most functions leave alone. -/
structure Core where
  memory : ℕ → UInt8
  pixmaps : ℕ → Pixmap
  rootEventMask : UInt32
  rootRedirectClient : UInt32
  assembly : Assembly
  released : List UInt32

def core (s : Server) : Core :=
  ⟨s.memory, s.pixmaps, s.rootEventMask, s.rootRedirectClient, s.assembly, s.released⟩

/-- The passive grabs in the table have been there before. -/
structure Sheds (s t : Server) : Prop where
  kept : ∀ i, (t.passiveGrabs i).used = true → t.passiveGrabs i = s.passiveGrabs i

structure Aside (P : SystemCall → Prop) (s t : Server) : Prop where
  core : t.core = s.core
  calls : ∃ new, t.calls = new ++ s.calls ∧ ∀ c ∈ new, P c

structure Beside (P : SystemCall → Prop) (s t : Server) : Prop extends Aside P s t, Sheds s t

/-- The core stays, nothing is drawn, and no passive grab is new. -/
abbrev Quiet : Server → Server → Prop := Beside fun c => c.draws = false

def Shows (s : Server) (surface : UInt32) (width height : ℕ) : Prop :=
  (∃ i, i < windowLimit ∧ (s.window i).used ≠ 0 ∧ (s.window i).surfaceHandle = surface
    ∧ surface ≠ 0 ∧ surface ≠ fallbackSurface
    ∧ width = clampedWidth (s.window i) ∧ height = clampedHeight (s.window i))
  ∨ ∃ p, p < pixmapLimit ∧ (s.pixmaps p).used = true ∧ (s.pixmaps p).surfaceHandle = surface
    ∧ width = (s.pixmaps p).width.toNat ∧ height = (s.pixmaps p).height.toNat

/-- The kernel numbers no surface like none or like the draw buffer. -/
def Distinct (sys : Answers) : Prop := ∀ factory width height calls,
  sys (.surfaceCreate factory width height :: calls) ≠ 0
    ∧ sys (.surfaceCreate factory width height :: calls) ≠ 0xFFFFFFFF

/-- The call stays inside a surface of the size given. -/
def Within (surface : UInt32) (width height : ℕ) : SystemCall → Prop
  | .surfaceWrite a pixels offset => a = surface ∧ offset + pixels.length ≤ width * height
  | .readPixel a index => a = surface ∧ index < width * height
  | _ => True

def InBounds (s : Server) (sys : Answers) (c : SystemCall) : Prop :=
  Distinct sys → c.draws = true → ∃ surface width height, s.Shows surface width height
    ∧ Within surface width height c

def Created (sys : Answers) (surface : UInt32) (width height : ℕ) : Prop :=
  ∃ factory calls, sys (.surfaceCreate factory width height :: calls) ≠ failure
    ∧ sys (.surfaceCreate factory width height :: calls) ≤ 0xFFFFFFFF
    ∧ surface = (sys (.surfaceCreate factory width height :: calls)).toUInt32

inductive EditKind where
  | quiet | draw | link (client : UInt32) (good : Bool) | adjust | surface | pixmap | retire
  | release

inductive Edit (sys : Answers) : EditKind → Server → Server → Prop
  | quiet {s t : Server} (h : Quiet s t) : Edit sys .quiet s t
  | draw {s t : Server} {P : SystemCall → Prop} (hP : ∀ c, P c → s.InBounds sys c)
      (h : Beside P s t) : Edit sys .draw s t
  | link {s : Server} {client : UInt32} {handle : UInt64} {good : Bool}
      (h : handle = 0 ∨ (∃ calls, handle = sys (.connectReply client :: calls))
        ∧ (good = true → handle ≠ failure)) :
      Edit sys (.link client good) s (s.setReplyHandle (client.toNat - 1) handle)
  | adjust {s : Server} {i : ℕ} {w : Window} (hplace : w.place = (s.window i).place)
      (hextent : w.extent = (s.window i).extent) : Edit sys .adjust s (s.setWindow i w)
  | surface {s : Server} {i : ℕ} {w : Window} (hplace : w.place = (s.window i).place)
      (hwidth : w.width = (s.window i).width) (hheight : w.height = (s.window i).height)
      (h : w.surfaceHandle = 0 ∨ w.surfaceHandle = fallbackSurface
        ∨ Created sys w.surfaceHandle (clampedWidth w) (clampedHeight w)) :
      Edit sys .surface s (s.setWindow i w)
  | pixmap {s : Server} {i : ℕ} {p : Pixmap} (h : p.used = false ∨ p.width = 0
        ∨ Created sys p.surfaceHandle p.width.toNat p.height.toNat) :
      Edit sys .pixmap s (s.setPixmap i p)
  | retire {s : Server} {i : ℕ} : Edit sys .retire s (s.setWindow i { s.window i with used := 0 })
  | release {s : Server} {client : UInt32} : Edit sys .release s (s.releaseRoot client)

/-- What a handler does that leaves the windows where they are. -/
def EditKind.plain : EditKind → Prop
  | .quiet | .draw | .adjust | .surface | .pixmap => True
  | _ => False

/-- What becomes of a client's resources. -/
def EditKind.closing : EditKind → Prop
  | .quiet | .adjust | .surface | .pixmap | .retire | .release => True
  | .link _ good => good = true
  | .draw => False

/-- What leaves the windows where they are, and draws nothing. -/
def EditKind.settling : EditKind → Prop
  | .quiet | .adjust | .surface | .pixmap => True
  | _ => False

theorem EditKind.settling.plain : ∀ k : EditKind, k.settling → k.plain
  | .quiet, _ | .adjust, _ | .surface, _ | .pixmap, _ => trivial
  | .draw, h | .link _ _, h | .retire, h | .release, h => h.elim

theorem EditKind.settling.closing : ∀ k : EditKind, k.settling → k.closing
  | .quiet, _ | .adjust, _ | .surface, _ | .pixmap, _ => trivial
  | .draw, h | .link _ _, h | .retire, h | .release, h => h.elim

def Path (sys : Answers) (K : EditKind → Prop) : Server → Server → Prop :=
  Relation.ReflTransGen fun s t => ∃ k, K k ∧ Edit sys k s t

/-! ### Beside -/

section

variable {P Q : SystemCall → Prop} {s t u : Server}

theorem Sheds.of_eq (h : t.passiveGrabs = s.passiveGrabs) : Sheds s t := ⟨fun i _ => congrFun h i⟩

theorem Sheds.trans (h : Sheds s t) (h' : Sheds t u) : Sheds s u :=
  ⟨fun i hi => (h'.kept i hi).trans (h.kept i (h'.kept i hi ▸ hi))⟩

theorem Sheds.of_drop {p : ℕ → Prop} [DecidablePred p] (h : ∀ i, t.passiveGrabs i
    = if p i then { s.passiveGrabs i with used := false } else s.passiveGrabs i) : Sheds s t := by
  refine ⟨fun i hi => ?_⟩
  rw [h] at hi ⊢
  split_ifs at hi ⊢
  rfl

theorem Aside.of_eq (hcore : t.core = s.core) (hcalls : t.calls = s.calls) : Aside P s t :=
  ⟨hcore, [], by simpa using hcalls, by simp⟩

theorem Aside.trans (h : Aside P s t) (h' : Aside P t u) : Aside P s u := by
  obtain ⟨hcore, new, hnew, hP⟩ := h
  obtain ⟨hcore', new', hnew', hP'⟩ := h'
  refine ⟨hcore'.trans hcore, new' ++ new, by rw [hnew', hnew, List.append_assoc], fun c hc => ?_⟩
  rcases List.mem_append.1 hc with h | h
  · exact hP' c h
  · exact hP c h

theorem Aside.mono (hPQ : ∀ c, P c → Q c) (h : Aside P s t) : Aside Q s t := by
  obtain ⟨hcore, new, hnew, hP⟩ := h
  exact ⟨hcore, new, hnew, fun c hc => hPQ c (hP c hc)⟩

theorem Aside.memory (h : Aside P s t) : t.memory = s.memory := congrArg Core.memory h.core

theorem Aside.pixmaps (h : Aside P s t) : t.pixmaps = s.pixmaps := congrArg Core.pixmaps h.core

theorem Aside.assembly (h : Aside P s t) : t.assembly = s.assembly :=
  congrArg Core.assembly h.core

theorem Aside.window (h : Aside P s t) (i : ℕ) : t.window i = s.window i := by
  rw [Server.window, h.memory, Server.window]

theorem Aside.findWindow (h : Aside P s t) (id : UInt32) : t.findWindow id = s.findWindow id := by
  simp only [Server.findWindow, h.window]

theorem Beside.aside (hcore : t.core = s.core) (hcalls : t.calls = s.calls)
    (hgrabs : t.passiveGrabs = s.passiveGrabs) : Beside P s t :=
  ⟨.of_eq hcore hcalls, .of_eq hgrabs⟩

theorem Beside.refl (s : Server) : Beside P s s := .aside rfl rfl rfl

theorem Beside.trans (h : Beside P s t) (h' : Beside P t u) : Beside P s u :=
  ⟨h.toAside.trans h'.toAside, h.toSheds.trans h'.toSheds⟩

theorem Beside.mono (hPQ : ∀ c, P c → Q c) (h : Beside P s t) : Beside Q s t :=
  ⟨h.toAside.mono hPQ, h.toSheds⟩

theorem Beside.ite {c : Prop} [Decidable c] (ht : c → Beside P s t) (hu : ¬c → Beside P s u) :
    Beside P s (if c then t else u) := by
  split_ifs with hc
  · exact ht hc
  · exact hu hc

theorem call_beside (s : Server) (sys : Answers) {c : SystemCall} (hc : P c) :
    Beside P s (s.call sys c).2 := ⟨⟨rfl, [c], rfl, by simpa using hc⟩, .of_eq rfl⟩

theorem forEach_beside {α : Type} {f : α → Server → Bool × Server} :
    ∀ (l : List α) (s : Server), (∀ a ∈ l, ∀ s, Beside P s (f a s).2) →
      Beside P s (forEach f l s).2
  | [], s, _ => .refl s
  | a :: l, s, h => by
    unfold forEach
    split_ifs
    · exact (h a (by simp) s).trans (forEach_beside l _ fun b hb => h b (by simp [hb]))
    · exact h a (by simp) s

theorem foldl_beside {α : Type} {f : Server → α → Server} :
    ∀ (l : List α) (s : Server), (∀ a ∈ l, ∀ s, Beside P s (f s a)) → Beside P s (l.foldl f s)
  | [], s, _ => .refl s
  | a :: l, s, h =>
    (h a (by simp) s).trans (foldl_beside l _ fun b hb => h b (by simp [hb]))

end

/-! ### Paths -/

section

variable {sys : Answers} {K L : EditKind → Prop} {s t u : Server}

theorem Path.refl (s : Server) : Path sys K s s := Relation.ReflTransGen.refl

theorem Path.trans (h : Path sys K s t) (h' : Path sys K t u) : Path sys K s u :=
  Relation.ReflTransGen.trans h h'

theorem Path.ite {c : Prop} [Decidable c] (ht : c → Path sys K s t) (hu : ¬c → Path sys K s u) :
    Path sys K s (if c then t else u) := by
  split_ifs with hc
  · exact ht hc
  · exact hu hc

theorem Path.single {k : EditKind} (h : Edit sys k s t) (hk : K k) : Path sys K s t :=
  Relation.ReflTransGen.single ⟨k, hk, h⟩

theorem Path.mono (hKL : ∀ k, K k → L k) (h : Path sys K s t) : Path sys L s t := by
  have hedit : ∀ s t, (∃ k, K k ∧ Edit sys k s t) → ∃ k, L k ∧ Edit sys k s t :=
    fun _ _ ⟨k, hk, he⟩ => ⟨k, hKL k hk, he⟩
  exact Relation.ReflTransGen.mono hedit _ _ h

theorem Path.keeps {I : Server → Prop} (h : Path sys K s t)
    (hedit : ∀ k s t, K k → Edit sys k s t → I s → I t) (hs : I s) : I t := by
  refine Relation.ReflTransGen.head_induction_on h (motive := fun s _ => I s → I t) id ?_ hs
  rintro a b ⟨k, hk, he⟩ - ih ha
  exact ih (hedit k a b hk he ha)

theorem Path.foldl {α : Type} {f : Server → α → Server} :
    ∀ (l : List α) (s : Server), (∀ a ∈ l, ∀ s, Path sys K s (f s a)) → Path sys K s (l.foldl f s)
  | [], s, _ => .refl s
  | a :: l, s, h => (h a (by simp) s).trans (Path.foldl l _ fun b hb => h b (by simp [hb]))

theorem releaseRoot_sheds (s : Server) (client : UInt32) : Sheds s (s.releaseRoot client) := by
  unfold releaseRoot
  dsimp only
  split_ifs <;> exact .of_eq rfl

theorem Edit.sheds {k : EditKind} (h : Edit sys k s t) : Sheds s t := by
  cases h with
  | quiet h => exact h.toSheds
  | draw _ h => exact h.toSheds
  | release => exact releaseRoot_sheds s _
  | link | adjust | surface | pixmap | retire => exact .of_eq rfl

theorem Path.sheds (h : Path sys K s t) : Sheds s t :=
  h.keeps (I := Sheds s) (fun _ _ _ _ he hs => hs.trans he.sheds) (.of_eq rfl)

theorem Quiet.path (h : Quiet s t) (hK : K .quiet) : Path sys K s t := .single (.quiet h) hK

theorem Quiet.plain (h : Quiet s t) : Path sys EditKind.plain s t := h.path trivial

theorem Quiet.settling (h : Quiet s t) : Path sys EditKind.settling s t := h.path trivial

theorem Quiet.closing (h : Quiet s t) : Path sys EditKind.closing s t := h.path trivial

end

/-! ### Surfaces and the compositor -/

variable (sys : Answers)

theorem fillDraw_quiet {P : SystemCall → Prop} (s : Server) (count : ℕ) (color : UInt32) :
    Beside P s (s.fillDraw count color) := .aside rfl rfl rfl

theorem call'_quiet (s : Server) {c : SystemCall} (hc : c.draws = false) :
    Quiet s (s.call' sys c) := call_beside s sys hc

theorem openFactory_quiet (s : Server) : Quiet s (s.openFactory sys) :=
  .ite (fun _ => (call'_quiet sys s (c := .serviceOpen 9) rfl).trans (.aside rfl rfl rfl))
    fun _ => .refl s

theorem openCompositor_quiet (s : Server) : Quiet s (s.openCompositor sys) :=
  .ite (fun _ => (call'_quiet sys s (c := .connectCompositor) rfl).trans (.aside rfl rfl rfl))
    fun _ => .refl s

theorem ensureDesktopHandles_quiet (s : Server) : Quiet s (s.ensureDesktopHandles sys).2 :=
  (openFactory_quiet sys s).trans (openCompositor_quiet sys _)

theorem sendCompositor_quiet (s : Server) (message : UInt32 → WindowMessage) :
    Quiet s (s.sendCompositor sys message).2 :=
  Beside.trans (t := { s with compositorSerial := s.compositorSerial + 1 }) (.aside rfl rfl rfl)
    (call_beside _ sys rfl)

theorem movePublishedWindow_quiet (s : Server) (i : ℕ) : Quiet s (s.movePublishedWindow sys i) :=
  .ite (fun _ => .refl s) fun _ => (ensureDesktopHandles_quiet sys s).trans
    (.ite (fun _ => .refl _) fun _ => sendCompositor_quiet sys _ _)

theorem fallBack_path (s : Server) (i : ℕ) : Path sys EditKind.plain s (s.fallBack i) := by
  refine Path.trans (.single (.surface (i := i)
    (w := { s.window i with surfaceHandle := fallbackSurface }) rfl rfl rfl (.inr (.inl rfl)))
    trivial) ?_
  exact Quiet.plain (fillDraw_quiet _ _ _)

theorem announceClosed_quiet (s : Server) (i : ℕ) : Quiet s (s.announceClosed sys i) :=
  .ite (fun _ => .refl s) fun _ => (ensureDesktopHandles_quiet sys s).trans
    (.ite (fun _ => .refl _) fun _ => sendCompositor_quiet sys _ _)

theorem closeSurface_quiet (s : Server) (surface : UInt32) : Quiet s (s.closeSurface sys surface) :=
  .ite (fun _ => call'_quiet sys s rfl) fun _ => .refl s

theorem dropSurface_path (s : Server) (i : ℕ) : Path sys EditKind.closing s
    (s.setWindow i { s.window i with surfaceHandle := 0, compositorSurface := 0 }) :=
  .single (.surface rfl rfl rfl (.inl rfl)) trivial

theorem closePublishedWindow_path (s : Server) (i : ℕ) :
    Path sys EditKind.closing s (s.closePublishedWindow sys i) :=
  (announceClosed_quiet sys s i).closing.trans ((closeSurface_quiet sys _ _).closing.trans
    (dropSurface_path sys _ i))

/-! ### The end of windows and clients -/

section

variable {P : SystemCall → Prop}

theorem setGc_beside (s : Server) (i : ℕ) (gc : Gc) : Beside P s (s.setGc i gc) := .aside rfl rfl rfl

theorem setCursor_beside (s : Server) (i : ℕ) (c : Cursor) : Beside P s (s.setCursor i c) :=
  .aside rfl rfl rfl

theorem setProperty_beside (s : Server) (i : ℕ) (p : Property) : Beside P s (s.setProperty i p) :=
  .aside rfl rfl rfl

theorem clearPointerGrab_beside (s : Server) : Beside P s s.clearPointerGrab := .aside rfl rfl rfl

theorem clearKeyboardGrab_beside (s : Server) : Beside P s s.clearKeyboardGrab := .aside rfl rfl rfl

theorem forgetFocus_beside (s : Server) (id : UInt32) : Beside P s (s.forgetFocus id) :=
  .ite (fun _ => .aside rfl rfl rfl) fun _ => .refl s

theorem forgetGrabs_beside (s : Server) (id : UInt32) : Beside P s (s.forgetGrabs id) :=
  .trans (.ite (fun _ => clearPointerGrab_beside s) fun _ => .refl s)
    (.ite (fun _ => clearKeyboardGrab_beside _) fun _ => .refl _)

theorem forgetSelection_beside (s : Server) (id : UInt32) : Beside P s (s.forgetSelection id) :=
  .ite (fun _ => .aside rfl rfl rfl) fun _ => .refl s

theorem removeWindowProperties_beside (s : Server) (id : UInt32) :
    Beside P s (s.removeWindowProperties id) := .aside rfl rfl rfl

theorem removeWindowResources_beside (s : Server) (id : UInt32) :
    Beside P s (s.removeWindowResources id) := ⟨.of_eq rfl rfl, .of_drop fun _ => rfl⟩

theorem releaseGcs_beside (s : Server) (client : UInt32) : Beside P s (s.releaseGcs client) :=
  .aside rfl rfl rfl

theorem releasePassiveGrabs_beside (s : Server) (client : UInt32) :
    Beside P s (s.releasePassiveGrabs client) := ⟨.of_eq rfl rfl, .of_drop fun _ => rfl⟩

theorem releaseGrabs_beside (s : Server) (client : UInt32) : Beside P s (s.releaseGrabs client) :=
  .trans (.trans (.ite (fun _ => clearPointerGrab_beside s) fun _ => .refl s)
    (.ite (fun _ => clearKeyboardGrab_beside _) fun _ => .refl _))
    (.ite (fun _ => .aside rfl rfl rfl) fun _ => .refl _)

end

theorem destroyWindowState_path (s : Server) (i : ℕ) :
    Path sys EditKind.closing s (s.destroyWindowState sys i) := by
  have hforget : Quiet s (((s.forgetFocus (s.window i).id).forgetGrabs
      (s.window i).id).forgetSelection (s.window i).id) :=
    (forgetFocus_beside s _).trans ((forgetGrabs_beside _ _).trans (forgetSelection_beside _ _))
  refine hforget.closing.trans ((closePublishedWindow_path sys _ i).trans ?_)
  exact .trans (Quiet.closing ((removeWindowProperties_beside _ _).trans
    (removeWindowResources_beside _ _))) (.single .retire trivial)

theorem releaseWindows_path (s : Server) (client : UInt32) :
    Path sys EditKind.closing s (s.releaseWindows sys client) :=
  .foldl _ s fun i _ s => .ite (fun _ => destroyWindowState_path sys s i) fun _ => .refl s

theorem releasePixmap_path (s : Server) (i : ℕ) :
    Path sys EditKind.settling s (s.releasePixmap sys i) :=
  .trans (.ite (fun _ => (call'_quiet sys s rfl).settling) fun _ => .refl s)
    (.single (.pixmap (.inl rfl)) trivial)

theorem releasePixmaps_path (s : Server) (client : UInt32) :
    Path sys EditKind.settling s (s.releasePixmaps sys client) :=
  .foldl _ s fun i _ s => .ite (fun _ => releasePixmap_path sys s i) fun _ => .refl s

theorem hideCursor_path {K : EditKind → Prop} (hK : K .adjust) (s : Server) (id : UInt32) :
    Path sys K s (s.hideCursor id) :=
  .foldl _ s fun _ _ s => .ite (fun _ => .single (.adjust rfl rfl) hK) fun _ => .refl s

theorem releaseCursors_path (s : Server) (client : UInt32) :
    Path sys EditKind.settling s (s.releaseCursors client) :=
  .foldl _ s fun i _ s => .ite (fun _ => (hideCursor_path sys trivial s _).trans
    (Quiet.settling (setCursor_beside _ i _))) fun _ => .refl s

theorem closeReply_quiet (s : Server) (handle : UInt64) : Quiet s (s.closeReply sys handle) :=
  .ite (fun _ => call'_quiet sys s rfl) fun _ => .refl s

theorem releaseReplyHandle_path (s : Server) (client : UInt32) :
    Path sys EditKind.closing s (s.releaseReplyHandle sys client) :=
  .ite (fun _ => .refl s) fun _ => (closeReply_quiet sys s _).closing.trans
    (.single (@Edit.link sys _ client _ true (.inl rfl)) rfl)

theorem releaseClient_path (s : Server) (client : UInt32) :
    Path sys EditKind.closing s (s.releaseClient sys client) := by
  refine .ite (fun _ => .refl s) fun _ => ?_
  refine (releaseWindows_path sys s client).trans
    (((releasePixmaps_path sys _ client).mono EditKind.settling.closing).trans ?_)
  refine (Quiet.closing (releaseGcs_beside _ client)).trans
    (((releaseCursors_path sys _ client).mono EditKind.settling.closing).trans ?_)
  refine (Quiet.closing (releasePassiveGrabs_beside _ client)).trans
    (.trans (t := releaseRoot _ client) (.single .release trivial) ?_)
  exact (Quiet.closing (releaseGrabs_beside _ client)).trans (releaseReplyHandle_path sys _ client)

end Server

end DemonX

end DemonOS
