import DemonOS.Proofs.DemonX.Turns

/-!
# What drawing leaves alone

Every function that talks to the kernel or the compositor leaves the tables of the server as they are
and sends no client anything (`Leaves`). So does every drawing routine, once the windows it draws on
have a surface: a window without one gets it first (`createWindowSurface_surfaced`).
-/

namespace DemonOS

namespace DemonX

def SystemCall.sends : SystemCall → Bool
  | .sendRecord .. => true
  | _ => false

namespace Server

/-- The tables and grabs no refusal writes. -/
structure Rest where
  properties : ℕ → Property
  atoms : ℕ → Atom
  cursors : ℕ → Cursor
  passiveGrabs : ℕ → PassiveGrab
  pointerGrabClient : UInt32
  pointerGrabWindow : UInt32
  pointerGrabMask : UInt32
  keyboardGrabClient : UInt32
  keyboardGrabWindow : UInt32
  serverGrabClient : UInt32

def rest (s : Server) : Rest :=
  ⟨s.properties, s.atoms, s.cursors, s.passiveGrabs, s.pointerGrabClient, s.pointerGrabWindow,
    s.pointerGrabMask, s.keyboardGrabClient, s.keyboardGrabWindow, s.serverGrabClient⟩

/-- The tables stay, and so does what is left for a client; no client is sent anything. -/
structure Leaves (s t : Server) : Prop where
  memory : t.memory = s.memory
  pixmaps : t.pixmaps = s.pixmaps
  gcs : t.gcs = s.gcs
  rest : t.rest = s.rest
  assembly : t.assembly = s.assembly
  outgoing : t.outgoing = s.outgoing
  calls : ∃ new, t.calls = new ++ s.calls ∧ ∀ c ∈ new, c.sends = false

section

variable {s t u : Server}

theorem Leaves.refl (s : Server) : Leaves s s := ⟨rfl, rfl, rfl, rfl, rfl, rfl, [], rfl, by simp⟩

theorem Leaves.trans (h : Leaves s t) (h' : Leaves t u) : Leaves s u where
  memory := h'.memory.trans h.memory
  pixmaps := h'.pixmaps.trans h.pixmaps
  gcs := h'.gcs.trans h.gcs
  rest := h'.rest.trans h.rest
  assembly := h'.assembly.trans h.assembly
  outgoing := h'.outgoing.trans h.outgoing
  calls := by
    obtain ⟨old, hold, hquiet⟩ := h.calls
    obtain ⟨new, hnew, hquiet'⟩ := h'.calls
    exact ⟨new ++ old, by rw [hnew, hold, List.append_assoc],
      fun c hc => (List.mem_append.1 hc).elim (hquiet' c) (hquiet c)⟩

theorem Leaves.ite {c : Prop} [Decidable c] (ht : c → Leaves s t) (hu : ¬c → Leaves s u) :
    Leaves s (if c then t else u) := by
  split_ifs with hc
  · exact ht hc
  · exact hu hc

theorem Leaves.window (h : Leaves s t) (i : ℕ) : t.window i = s.window i := by
  rw [Server.window, h.memory, Server.window]

end

/-! ## Calls and loops -/

section

variable (sys : Answers)

theorem call_leaves (s : Server) {c : SystemCall} (hc : c.sends = false) :
    Leaves s (s.call sys c).2 := ⟨rfl, rfl, rfl, rfl, rfl, rfl, [c], rfl, by simpa using hc⟩

theorem call'_leaves (s : Server) {c : SystemCall} (hc : c.sends = false) :
    Leaves s (s.call' sys c) := call_leaves sys s hc

end

theorem forEach_leaves {α : Type} {f : α → Server → Bool × Server}
    (hf : ∀ a s, Leaves s (f a s).2) : ∀ (l : List α) (s : Server), Leaves s (forEach f l s).2
  | [], s => .refl s
  | a :: l, s => by
    unfold forEach
    split_ifs
    · exact (hf a s).trans (forEach_leaves hf l _)
    · exact hf a s

theorem foldl_leaves {α : Type} {f : Server → α → Server} (hf : ∀ a s, Leaves s (f s a)) :
    ∀ (l : List α) (s : Server), Leaves s (l.foldl f s)
  | [], s => .refl s
  | a :: l, s => (hf a s).trans (foldl_leaves hf l _)

theorem foldlM_leaves {α : Type} {f : Server → α → Option Server}
    (hf : ∀ a s t, f s a = some t → Leaves s t) :
    ∀ (l : List α) (s t : Server), l.foldlM f s = some t → Leaves s t
  | [], s, t, h => by
    obtain rfl : s = t := Option.some.inj h
    exact .refl s
  | a :: l, s, t, h => by
    rw [List.foldlM_cons] at h
    obtain ⟨u, hu, ht⟩ := Option.bind_eq_some_iff.1 h
    exact (hf a s u hu).trans (foldlM_leaves hf l u t ht)

/-! ## The compositor -/

section

variable (sys : Answers)

theorem drawPixels_leaves (s : Server) (pixels : ℕ → UInt32) :
    Leaves s { s with drawPixels := pixels } := ⟨rfl, rfl, rfl, rfl, rfl, rfl, [], rfl, by simp⟩

theorem fillDraw_leaves (s : Server) (count : ℕ) (color : UInt32) :
    Leaves s (s.fillDraw count color) := drawPixels_leaves s _

theorem openFactory_leaves (s : Server) : Leaves s (s.openFactory sys) :=
  .ite (fun _ => ⟨rfl, rfl, rfl, rfl, rfl, rfl, [_], rfl, by simp [SystemCall.sends]⟩)
    fun _ => .refl s

theorem openCompositor_leaves (s : Server) : Leaves s (s.openCompositor sys) :=
  .ite (fun _ => ⟨rfl, rfl, rfl, rfl, rfl, rfl, [_], rfl, by simp [SystemCall.sends]⟩)
    fun _ => .refl s

theorem ensureDesktopHandles_leaves (s : Server) : Leaves s (s.ensureDesktopHandles sys).2 :=
  (openFactory_leaves sys s).trans (openCompositor_leaves sys _)

theorem sendCompositor_leaves (s : Server) (message : UInt32 → WindowMessage) :
    Leaves s (s.sendCompositor sys message).2 :=
  ⟨rfl, rfl, rfl, rfl, rfl, rfl, [_], rfl, by simp [SystemCall.sends]⟩

theorem movePublishedWindow_leaves (s : Server) (i : ℕ) :
    Leaves s (s.movePublishedWindow sys i) :=
  .ite (fun _ => .refl s) fun _ => (ensureDesktopHandles_leaves sys s).trans
    (.ite (fun _ => .refl _) fun _ => sendCompositor_leaves sys _ _)

theorem movePublishedDescendants_leaves : ∀ (depth : ℕ) (parent : UInt32) (s t : Server),
    movePublishedDescendants sys depth parent s = some t → Leaves s t
  | 0, _, _, _, h => by cases h
  | depth + 1, parent, s, t, h => by
    refine foldlM_leaves (fun i s t hi => ?_) _ s t h
    split_ifs at hi
    · obtain rfl : s = t := Option.some.inj hi
      exact .refl s
    · exact (movePublishedWindow_leaves sys s i).trans
        (movePublishedDescendants_leaves depth _ _ t hi)

theorem movePublished_leaves {s t : Server} {i : ℕ} (h : s.movePublished sys i = some t) :
    Leaves s t :=
  (movePublishedWindow_leaves sys s i).trans (movePublishedDescendants_leaves sys _ _ _ t h)

theorem announceClosed_leaves (s : Server) (i : ℕ) : Leaves s (s.announceClosed sys i) :=
  .ite (fun _ => .refl s) fun _ => (ensureDesktopHandles_leaves sys s).trans
    (.ite (fun _ => .refl _) fun _ => sendCompositor_leaves sys _ _)

theorem closeSurface_leaves (s : Server) (surface : UInt32) :
    Leaves s (s.closeSurface sys surface) :=
  .ite (fun _ => call'_leaves sys s rfl) fun _ => .refl s

/-! ## Pixels -/

theorem setDraw_leaves (s : Server) (pixels : List UInt32) : Leaves s (s.setDraw pixels) :=
  drawPixels_leaves s _

theorem surfaceWritePixels_leaves (s : Server) (surface : UInt32) (pixels : List UInt32)
    (offset : ℕ) : Leaves s (s.surfaceWritePixels sys surface pixels offset).2 :=
  call_leaves sys s rfl

theorem surfaceWrite_leaves (s : Server) (surface : UInt32) (count offset : ℕ) :
    Leaves s (s.surfaceWrite sys surface count offset).2 :=
  surfaceWritePixels_leaves sys s surface _ offset

theorem readPixels_leaves (surface : UInt32) : ∀ (indices : List ℕ) (s : Server),
    Leaves s (s.readPixels sys surface indices).2
  | [], s => .refl s
  | _ :: indices, s => (call_leaves sys s rfl).trans (readPixels_leaves surface indices _)

theorem damage_leaves (s : Server) (surface : UInt32) (x y width height : ℤ) :
    Leaves s (s.damage sys surface x y width height).2 := call_leaves sys s rfl

theorem fillCells_leaves (s : Server) (surface : UInt32) (stride : ℕ) (cells : List (ℕ × ℕ × ℕ)) :
    Leaves s (s.fillCells sys surface stride cells).2 :=
  forEach_leaves (fun _ s => surfaceWrite_leaves sys s _ _ _) cells s

/-! ## The surface of a window -/

theorem paintBackground_leaves (s : Server) (surface : UInt32) (count : ℕ) :
    Leaves s (s.paintBackground sys surface count).2 := by
  have hpaint := (fillDraw_leaves s drawChunkPixels backgroundColor).trans
    (forEach_leaves (fun part s => surfaceWrite_leaves sys s surface part.2 part.1)
      (chunks 0 count) _)
  unfold paintBackground
  dsimp only
  split_ifs
  · exact hpaint
  · exact hpaint.trans ⟨rfl, rfl, rfl, rfl, rfl, rfl, [], rfl, by simp⟩

theorem createWindowSurface_ready {s : Server} {i : ℕ} (h : (s.window i).surfaceHandle ≠ 0) :
    s.createWindowSurface sys i = (true, s) := if_pos h

theorem createWindowSurface_sets (s : Server) (i : ℕ)
    (h : (s.window i).surfaceHandle = 0) : ∃ t surface, Leaves s t
      ∧ Leaves (t.setWindow i { s.window i with surfaceHandle := surface })
        (s.createWindowSurface sys i).2
      ∧ (Distinct sys → surface ≠ 0) := by
  have hopen := openFactory_leaves sys s
  unfold createWindowSurface
  rw [if_neg (not_not.2 h)]
  dsimp only
  split_ifs with hfactory
  · refine ⟨s.openFactory sys, fallbackSurface, hopen, ?_, fun _ => by decide⟩
    unfold fallBack
    rw [hopen.window]
    exact fillDraw_leaves _ _ _
  · have hcall := call_leaves sys (s.openFactory sys) (c := .surfaceCreate
      (s.openFactory sys).surfaceFactoryHandle (clampedWidth ((s.openFactory sys).window i))
      (clampedHeight ((s.openFactory sys).window i))) rfl
    unfold makeSurface
    dsimp only
    set r := (s.openFactory sys).call sys (.surfaceCreate
      (s.openFactory sys).surfaceFactoryHandle (clampedWidth ((s.openFactory sys).window i))
      (clampedHeight ((s.openFactory sys).window i))) with hr
    have hwindow : r.2.window i = s.window i := (hcall.window i).trans (hopen.window i)
    split_ifs with hfail
    · refine ⟨r.2, fallbackSurface, hopen.trans hcall, ?_, fun _ => by decide⟩
      unfold fallBack
      rw [hwindow]
      exact fillDraw_leaves _ _ _
    · rw [not_or, UInt64.not_lt] at hfail
      refine ⟨r.2, r.1.toUInt32, hopen.trans hcall, ?_, fun hsys => ?_⟩
      · rw [hwindow]
        exact paintBackground_leaves sys _ _ _
      · exact toUInt32_ne hfail.2 (hsys _ _ _ _).1

theorem createWindowSurface_surfaced (hsys : Distinct sys) (s : Server) (i : ℕ) :
    ((s.createWindowSurface sys i).2.window i).surfaceHandle ≠ 0 := by
  by_cases h : (s.window i).surfaceHandle = 0
  · obtain ⟨t, surface, -, hset, hsurface⟩ := createWindowSurface_sets sys s i h
    rw [hset.window, window_setWindow_self]
    exact hsurface hsys
  · rwa [createWindowSurface_ready sys h]

theorem createWindowSurface_keeps (s : Server) (i : ℕ) {j : ℕ}
    (hj : (s.window j).surfaceHandle ≠ 0) :
    ((s.createWindowSurface sys i).2.window j).surfaceHandle ≠ 0 := by
  by_cases h : (s.window i).surfaceHandle = 0
  · obtain ⟨t, surface, hst, hset, -⟩ := createWindowSurface_sets sys s i h
    have hji : j ≠ i := fun hji => hj (hji ▸ h)
    rwa [hset.window, window_setWindow_ne t _ hji, hst.window]
  · rwa [createWindowSurface_ready sys h]

theorem createWindowSurface_outgoing (s : Server) (i : ℕ) :
    (s.createWindowSurface sys i).2.outgoing = s.outgoing := by
  by_cases h : (s.window i).surfaceHandle = 0
  · obtain ⟨t, surface, hst, hset, -⟩ := createWindowSurface_sets sys s i h
    exact hset.outgoing.trans hst.outgoing
  · rw [createWindowSurface_ready sys h]

/-! ## Drawing -/

theorem fillRectangle_leaves (s : Server) (i : ℕ) (foreground : UInt32)
    (x y width height : UInt16) : Leaves (s.createWindowSurface sys i).2
      (s.fillRectangle sys i foreground x y width height).2 := by
  unfold fillRectangle
  dsimp only
  set t := (s.createWindowSurface sys i).2
  have hfill : ∀ count color, Leaves t (t.fillDraw count color) := fillDraw_leaves t
  have hwritten : ∀ surface stride cells, Leaves t
      ((t.fillDraw drawChunkPixels (foreground ||| opaqueAlpha)).fillCells sys surface stride
        cells).2 := fun _ _ _ => (hfill _ _).trans (fillCells_leaves sys _ _ _ _)
  split_ifs
  · exact .refl t
  · exact .refl t
  · refine (hfill _ _).trans (foldl_leaves (fun cell s => ?_) _ _)
    exact drawPixels_leaves s _
  · exact hwritten _ _ _
  all_goals exact (hwritten _ _ _).trans (damage_leaves sys _ _ _ _ _ _)

theorem fillPixmap_leaves (s : Server) (p : ℕ) (foreground : UInt32)
    (x y width height : UInt16) :
    Leaves s (s.fillPixmap sys p foreground x y width height).2 := by
  unfold fillPixmap
  dsimp only
  split_ifs
  · exact .refl s
  all_goals exact (fillDraw_leaves s _ _).trans (fillCells_leaves sys _ _ _ _)

theorem putRow_leaves (d : Drawable) (x y : UInt16) (width : ℕ) (data : ℕ → UInt8) (row : ℕ)
    (s : Server) : Leaves s (putRow sys d x y width data row s).2 := by
  unfold putRow
  dsimp only
  split_ifs
  · exact .refl s
  · exact (setDraw_leaves s _).trans (surfaceWrite_leaves sys _ _ _ _)

theorem putImage_leaves (s : Server) (id : UInt32) (x y width height : UInt16)
    (data : ℕ → UInt8) (hvalid : s.validDrawable id = true) :
    Leaves (s.drawableSurface sys id).2 (s.putImage sys id x y width height data).2 := by
  unfold putImage
  rw [if_neg (by simpa using hvalid)]
  dsimp only
  rcases s.drawableSurface sys id with ⟨_ | d, t⟩
  · exact .refl t
  dsimp only
  have hrows := forEach_leaves (putRow_leaves sys d x y width.toNat data) (List.range height.toNat) t
  split_ifs
  · exact hrows
  · exact hrows.trans (damage_leaves sys _ _ _ _ _ _)
  · exact hrows

theorem copyPart_leaves (source destination : Drawable) (r : CopyRegion) (part : ℕ × ℕ × ℕ)
    (s : Server) : Leaves s (copyPart sys source destination r part s).2 :=
  (readPixels_leaves sys source.surface _ s).trans
    ((setDraw_leaves _ _).trans (surfaceWrite_leaves sys _ _ _ _))

theorem copyArea_leaves (s : Server) (sourceId destinationId : UInt32)
    (sx sy dx dy width height : UInt16) :
    Leaves (if (s.drawableSurface sys sourceId).1 = none then (s.drawableSurface sys sourceId).2
        else ((s.drawableSurface sys sourceId).2.drawableSurface sys destinationId).2)
      (s.copyArea sys sourceId destinationId sx sy dx dy width height).2 := by
  unfold copyArea
  rcases s.drawableSurface sys sourceId with ⟨_ | source, t⟩
  · exact .refl t
  dsimp only
  rw [if_neg (by simp)]
  rcases t.drawableSurface sys destinationId with ⟨_ | destination, u⟩
  · exact .refl u
  dsimp only
  set r := clipCopy source destination sx sy dx dy width height
  have hmap := call_leaves sys u (c := .surfaceMap source.surface) rfl
  have hcopy := hmap.trans (forEach_leaves (copyPart_leaves sys source destination r)
    (copyOrder (source.surface = destination.surface) r) _)
  have hunmap := hcopy.trans (call'_leaves sys _ (c := .surfaceUnmap source.surface) rfl)
  split_ifs
  · exact .refl u
  · exact hmap
  · exact hunmap
  · exact hunmap.trans (damage_leaves sys _ _ _ _ _ _)
  · exact hunmap

theorem tilePart_leaves (p : Pixmap) (surface : UInt32) (stride : ℕ) (cell : ℕ × ℕ × ℕ)
    (s : Server) : Leaves s (tilePart sys p surface stride cell s).2 :=
  (readPixels_leaves sys p.surfaceHandle _ s).trans
    ((setDraw_leaves _ _).trans (surfaceWrite_leaves sys _ _ _ _))

theorem tileBackground_leaves (s : Server) (i p : ℕ) (x y width height : UInt16) :
    Leaves (s.createWindowSurface sys i).2 (s.tileBackground sys i p x y width height).2 := by
  unfold tileBackground
  dsimp only
  set t := (s.createWindowSurface sys i).2
  set background := t.pixmaps p
  have hmap := call_leaves sys t (c := .surfaceMap background.surfaceHandle) rfl
  have htiled := fun surface stride cells => hmap.trans
    (forEach_leaves (tilePart_leaves sys background surface stride) cells _)
  have hunmap := fun u (h : Leaves t u) =>
    h.trans (call'_leaves sys u (c := .surfaceUnmap background.surfaceHandle) rfl)
  split_ifs
  · exact .refl t
  · exact hmap
  · exact hunmap _ hmap
  · exact hunmap _ (htiled _ _ _)
  · exact (hunmap _ (htiled _ _ _)).trans (damage_leaves sys _ _ _ _ _ _)

theorem clearBackground_leaves (s : Server) (i : ℕ) (x y width height : UInt16) :
    Leaves (s.createWindowSurface sys i).2 (s.clearBackground sys i x y width height).2 := by
  unfold clearBackground
  dsimp only
  rcases s.findPixmap (s.window i).backgroundPixmap with _ | p
  · exact fillRectangle_leaves sys s i _ _ _ _ _
  dsimp only
  split_ifs
  · exact fillRectangle_leaves sys s i _ _ _ _ _
  · exact tileBackground_leaves sys s i p _ _ _ _

theorem glyphPixels_leaves (surface color : UInt32) (glyph : List UInt8) (row scale first : ℕ) :
    ∀ (columns : List ℕ) (s : Server),
      Leaves s (glyphPixels sys surface color glyph row scale first columns s).2
  | [], s => .refl s
  | column :: columns, s => by
    unfold glyphPixels
    split_ifs
    · exact glyphPixels_leaves surface color glyph row scale first columns s
    · exact (call_leaves sys s (c := .readPixel surface (first + column)) rfl).trans
        (glyphPixels_leaves surface color glyph row scale first columns _)

theorem glyphRow_leaves (d : Drawable) (color : UInt32) (x top : ℤ) (text : ℕ → UInt8)
    (scale : ℕ) (buffered : Bool) (part : ℕ × ℕ × ℕ) (s : Server) :
    Leaves s (glyphRow sys d color x top text scale buffered part s).2 := by
  unfold glyphRow
  rcases glyphColumns (text part.1) with _ | glyph
  · exact .refl s
  dsimp only
  split
  · exact .refl s
  · exact (glyphPixels_leaves sys d.surface color glyph _ _ _ _ s).trans
      (Leaves.trans (.ite (fun _ => setDraw_leaves _ _) fun _ => .refl _)
        (surfaceWritePixels_leaves sys _ _ _ _))

theorem drawGlyphs_leaves (s : Server) (id foreground : UInt32) (x baseline : UInt16)
    (text : ℕ → UInt8) (length scale : ℕ) (buffered : Bool) :
    Leaves (s.drawableSurface sys id).2
      (s.drawGlyphs sys id foreground x baseline text length scale buffered).2 := by
  unfold drawGlyphs
  rcases s.drawableSurface sys id with ⟨_ | d, t⟩
  · exact .refl t
  dsimp only
  have hmap := call_leaves sys t (c := .surfaceMap d.surface) rfl
  have hwritten := hmap.trans (forEach_leaves (glyphRow_leaves sys d (foreground ||| opaqueAlpha)
    (int16 x) (int16 baseline - 7 * scale) text scale buffered) (textRows length scale) _)
  have hunmap := hwritten.trans (call'_leaves sys _ (c := .surfaceUnmap d.surface) rfl)
  split_ifs
  · exact hmap
  · exact hunmap
  · exact hunmap.trans (damage_leaves sys _ _ _ _ _ _)
  · exact hunmap

end

end Server

end DemonX

end DemonOS
