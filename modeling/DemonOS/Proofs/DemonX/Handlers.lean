import DemonOS.Proofs.DemonX.Drawing

/-!
# What the requests of the DemonX server do to its windows

Of all requests only six do more to the windows and the root selection than a plain path:
`AttachSurface`, `KillClient`, `SetInputFocus`, which may lose a client, `ConfigureWindow`,
`ReparentWindow` and `DestroyWindow`, besides `CreateWindow` and the selection on the root.
-/

namespace DemonOS

namespace DemonX

namespace Server

variable {P : SystemCall → Prop} {i : ℕ} {s t : Server} {w : Window}

variable (sys : Answers)

/-! ## Packets -/

section

variable {P : SystemCall → Prop}

theorem compose_beside (s : Server) (client : UInt32) (flags : UInt16) (length : ℕ)
    (payload : ℕ → UInt8) : Beside P s (s.compose client flags length payload) := .aside rfl rfl rfl

theorem event_beside (s : Server) (client : UInt32) (payload : ℕ → UInt8) :
    Beside P s (s.event client payload) := compose_beside s _ _ _ _

theorem reply_beside (s : Server) (length : ℕ) (payload : ℕ → UInt8) :
    Beside P s (s.reply length payload) := compose_beside s _ _ _ _

theorem refuse_beside (s : Server) (code opcode : UInt8) (badValue : UInt32) :
    Beside P s (s.refuse code opcode badValue).2 := compose_beside s _ _ _ _

theorem focusNotify_beside (s : Server) (window : Option ℕ) (type : UInt8) :
    Beside P s (s.focusNotify window type).2 := by
  rcases window with _ | i
  · exact .refl s
  · unfold focusNotify
    dsimp only
    split_ifs
    · exact .refl s
    · exact event_beside s _ _

theorem propertyNotify_beside (s : Server) (windowId atom : UInt32) (state : UInt8) :
    Beside P s (s.propertyNotify windowId atom state).2 := by
  unfold propertyNotify
  rcases s.propertyListener windowId with _ | destination
  · exact .refl s
  · exact event_beside s _ _

end

/-! ## Windows -/

theorem adjust_path (s : Server) (i : ℕ) (hplace : w.place = (s.window i).place)
    (hextent : w.extent = (s.window i).extent) : Path sys EditKind.plain s (s.setWindow i w) :=
  .single (.adjust hplace hextent) trivial

theorem shareSurface_path (s : Server) (i : ℕ) :
    Path sys EditKind.plain s (s.shareSurface sys i).2 := by
  have hshare : Quiet s (s.call sys (.surfaceShare (s.window i).surfaceHandle
      s.compositorHandle)).2 := call_beside s sys rfl
  unfold shareSurface
  dsimp only
  split_ifs
  · exact hshare.plain
  · exact hshare.plain.trans (adjust_path sys _ i rfl rfl)
  · exact .refl s

theorem announceWindow_path (s : Server) (i : ℕ) :
    Path sys EditKind.plain s (s.announceWindow sys i).2 := by
  have hensure := ensureDesktopHandles_quiet sys s
  have hshare := shareSurface_path sys (s.ensureDesktopHandles sys).2 i
  unfold announceWindow
  dsimp only
  split_ifs
  · exact hensure.plain
  · exact hensure.plain.trans hshare
  · exact hensure.plain.trans (hshare.trans (sendCompositor_quiet sys _ _).plain)

theorem publishWindow_path (s : Server) (hi : i < windowLimit)
    (hused : (s.window i).used ≠ 0) : Path sys EditKind.plain s (s.publishWindow sys i).2 := by
  obtain ⟨hpath, -⟩ := createWindowSurface_spec sys s hi hused
  unfold publishWindow
  dsimp only
  split_ifs
  · exact hpath
  · exact hpath.trans (announceWindow_path sys _ i)

theorem mapWindow_path (s : Server) (hi : i < windowLimit)
    (hused : (s.window i).used ≠ 0) : Path sys EditKind.plain s (s.mapWindow sys i).2 := by
  obtain ⟨hcreate, -⟩ := createWindowSurface_spec sys s hi hused
  have hclear := clearBackground_path sys (s.createWindowSurface sys i).2 hi
    (by rw [hcreate.used]; exact hused) 0 0 0 0
  have hpublish : ∀ t, Path sys EditKind.plain s t → Path sys EditKind.plain s
      ((t.publishWindow sys i).2.setWindow i
        { (t.publishWindow sys i).2.window i with mapped := 1 }) := fun t ht =>
    ht.trans ((publishWindow_path sys t hi (by rw [ht.used]; exact hused)).trans
      (adjust_path sys _ i rfl rfl))
  unfold mapWindow
  dsimp only
  split_ifs
  · exact Quiet.plain (event_beside s _ _)
  · exact (hpublish _ (hcreate.trans hclear)).trans (Quiet.plain (event_beside _ _ _))
  · exact hpublish _ (hcreate.trans hclear)
  · exact (hpublish _ hcreate).trans (Quiet.plain (event_beside _ _ _))
  · exact hpublish _ hcreate

theorem foldlM_quiet {α : Type} {f : Server → α → Option Server} :
    ∀ (l : List α) (s t : Server), (∀ a ∈ l, ∀ s t, f s a = some t → Quiet s t) →
      l.foldlM f s = some t → Quiet s t
  | [], s, t, _, h => by
    obtain rfl : s = t := Option.some.inj h
    exact .refl s
  | a :: l, s, t, hf, h => by
    rw [List.foldlM_cons] at h
    obtain ⟨u, hu, ht⟩ := Option.bind_eq_some_iff.1 h
    exact (hf a (by simp) s u hu).trans
      (foldlM_quiet l u t (fun b hb => hf b (by simp [hb])) ht)

theorem movePublishedDescendants_quiet : ∀ (depth : ℕ) (parent : UInt32) (s t : Server),
    movePublishedDescendants sys depth parent s = some t → Quiet s t
  | 0, _, _, _, h => by cases h
  | depth + 1, parent, s, t, h => by
    refine foldlM_quiet _ s t (fun i _ s t hi => ?_) h
    split_ifs at hi
    · obtain rfl : s = t := Option.some.inj hi
      exact .refl s
    · exact (movePublishedWindow_quiet sys s i).trans
        (movePublishedDescendants_quiet depth _ _ t hi)

theorem movePublished_quiet (h : s.movePublished sys i = some t) :
    Quiet s t :=
  (movePublishedWindow_quiet sys s i).trans (movePublishedDescendants_quiet sys _ _ _ t h)

theorem selectInput_path (s : Server) (i : ℕ) : Path sys EditKind.plain s (s.selectInput i).2 :=
  adjust_path sys s i rfl rfl

theorem unmapWindow_path (s : Server) (i : ℕ) : Path sys EditKind.plain s (s.unmapWindow i).2 := by
  have hunmap := adjust_path sys s i (w := { s.window i with mapped := 0 }) rfl rfl
  unfold unmapWindow
  dsimp only
  split_ifs
  · exact hunmap.trans (Quiet.plain (event_beside _ _ _))
  · exact hunmap.trans (Quiet.plain (event_beside _ _ _))
  · exact hunmap

theorem changeWindowAttributes_path (s : Server) (i : ℕ) (id : UInt32) :
    Path sys EditKind.plain s (s.changeWindowAttributes i id).2 := by
  unfold changeWindowAttributes
  dsimp only
  split_ifs
  · exact Quiet.plain (refuse_beside s _ _ _)
  · exact adjust_path sys s i rfl rfl
  · exact adjust_path sys s i rfl rfl
  · exact adjust_path sys s i rfl rfl
  · exact Quiet.plain (refuse_beside s _ _ _)

theorem clearArea_path (s : Server) (hi : i < windowLimit) (hused : (s.window i).used ≠ 0)
    (id : UInt32) : Path sys EditKind.plain s (s.clearArea sys i id).2 := by
  have hclear := clearBackground_path sys s hi hused (s.field16 8) (s.field16 10) (s.field16 12)
    (s.field16 14)
  unfold clearArea
  dsimp only
  split_ifs
  · exact hclear.trans (Quiet.plain (refuse_beside _ _ _ _))
  · exact hclear

theorem changeSaveSet_path (s : Server) (id : UInt32) :
    Path sys EditKind.plain s (s.changeSaveSet id).2 := by
  unfold changeSaveSet
  rcases s.findWindow id with _ | i
  · exact Quiet.plain (refuse_beside s _ _ _)
  dsimp only
  split_ifs
  · exact Quiet.plain (refuse_beside s _ _ _)
  · exact adjust_path sys s i rfl rfl
  · exact adjust_path sys s i rfl rfl
  · exact .refl s

theorem getWindowAttributes_beside (s : Server) (window : Option ℕ)
    (id : UInt32) : Beside P s (s.getWindowAttributes window id).2 := by
  rcases window with _ | i
  · exact refuse_beside s _ _ _
  · exact reply_beside s _ _

theorem queryTree_beside (s : Server) (window : Option ℕ) (id : UInt32) :
    Beside P s (s.queryTree window id).2 := by
  unfold queryTree
  dsimp only
  split_ifs
  · exact refuse_beside s _ _ _
  · exact refuse_beside s _ _ _
  all_goals exact reply_beside s _ _

/-! ## The pointer, the grabs, the selection and the cursors -/

theorem grabServer_beside (s : Server) : Beside P s s.grabServer.2 := by
  unfold grabServer
  dsimp only
  split_ifs
  · exact .aside rfl rfl rfl
  · exact refuse_beside s _ _ _

theorem ungrabServer_beside (s : Server) : Beside P s s.ungrabServer.2 :=
  .ite (fun _ => .aside rfl rfl rfl) fun _ => .refl s

theorem sendWarp_quiet (s : Server) (destination : UInt32) (origin : ℤ × ℤ) :
    Quiet s (s.sendWarp sys destination origin).2 := by
  have hensure := ensureDesktopHandles_quiet sys s
  unfold sendWarp
  dsimp only
  split_ifs
  · exact hensure.trans (refuse_beside _ _ _ _)
  · dsimp only
    exact hensure.trans (sendCompositor_quiet sys _ _)
  · exact hensure.trans ((sendCompositor_quiet sys _ _).trans (refuse_beside _ _ _ _))

theorem warpPointer_quiet (s : Server) (source : UInt32) : Quiet s (s.warpPointer sys source).2 := by
  unfold warpPointer
  by_cases hrefuse : (source ≠ 0 ∧ source ≠ rootWindow ∧ s.findWindow source = none)
      ∨ (s.field32 8 ≠ rootWindow ∧ s.warpTarget (s.field32 8) = none)
  · rw [if_pos hrefuse]
    exact refuse_beside s _ _ _
  · rw [if_neg hrefuse]
    exact sendWarp_quiet sys s _ _

theorem setSelectionOwner_beside (s : Server) (atom : UInt32) :
    Beside P s (s.setSelectionOwner atom).2 := by
  unfold setSelectionOwner
  dsimp only
  split_ifs
  · exact refuse_beside s _ _ _
  · exact .aside rfl rfl rfl

theorem getSelectionOwner_beside (s : Server) (atom : UInt32) :
    Beside P s (s.getSelectionOwner atom).2 := reply_beside s _ _

theorem passiveGrab_aside (s : Server) (opcode : UInt8) (id : UInt32) :
    Aside P s (s.passiveGrab opcode id).2 := by
  unfold passiveGrab
  by_cases hwindow : s.findWindow id = none ∧ id ≠ rootWindow
  · rw [if_pos hwindow]
    exact (refuse_beside s _ _ _).toAside
  rw [if_neg hwindow]
  by_cases hungrab : opcode = Opcode.ungrabKey ∨ opcode = Opcode.ungrabButton
  · rw [if_pos hungrab]
    exact .of_eq rfl rfl
  rw [if_neg hungrab]
  rcases s.passiveSlot _ _ _ _ with _ | i
  · exact (refuse_beside s _ _ _).toAside
  dsimp only
  split_ifs
  · exact .of_eq rfl rfl
  · exact (refuse_beside s _ _ _).toAside
  all_goals exact .of_eq rfl rfl

/-- No grab is taken by a request to give one up. -/
theorem passiveGrab_beside (s : Server) {opcode : UInt8}
    (hop : opcode = Opcode.ungrabKey ∨ opcode = Opcode.ungrabButton) (id : UInt32) :
    Beside P s (s.passiveGrab opcode id).2 := by
  refine ⟨passiveGrab_aside s opcode id, ?_⟩
  unfold passiveGrab
  dsimp only
  split_ifs
  · exact (refuse_beside (P := P) s _ _ _).toSheds
  all_goals exact .of_drop fun _ => rfl

theorem holdGrab_beside (s : Server) (pointer : Bool) (id : UInt32) :
    Beside P s (s.holdGrab pointer id) :=
  .ite (fun _ => .aside rfl rfl rfl) fun _ => .aside rfl rfl rfl

theorem activeGrab_beside (s : Server) (opcode : UInt8) (id : UInt32) :
    Beside P s (s.activeGrab opcode id).2 :=
  Beside.trans (.ite (fun _ => .refl s) fun _ => holdGrab_beside s _ id) (reply_beside _ _ _)

theorem activeUngrab_beside (s : Server) (opcode : UInt8) :
    Beside P s (s.activeUngrab opcode).2 := by
  unfold activeUngrab
  dsimp only
  split_ifs
  · exact clearPointerGrab_beside s
  · exact clearKeyboardGrab_beside s
  · exact .refl s

theorem createFontCursor_beside (s : Server) (id : UInt32) :
    Beside P s (s.createFontCursor id).2 := by
  have hmake : ∀ r, s.allocateCursor id s.incoming.clientId = some r → Beside P s r.2 :=
    fun r hr => by
      unfold allocateCursor at hr
      split_ifs at hr
      obtain ⟨i, -, rfl⟩ := Option.map_eq_some_iff.1 hr
      exact setCursor_beside s i _
  unfold createFontCursor
  rcases hr : s.allocateCursor id s.incoming.clientId with _ | ⟨i, t⟩
  · exact refuse_beside s _ _ _
  · exact (hmake _ hr).trans (setCursor_beside t i _)

theorem defineCursor_path (s : Server) (id : UInt32) :
    Path sys EditKind.plain s (s.defineCursor id).2 := by
  unfold defineCursor
  by_cases hrefuse : (id ≠ rootWindow ∧ s.findWindow id = none)
      ∨ (s.findCursor (s.field32 8)).any s.foreignCursor
  · rw [if_pos hrefuse]
    exact Quiet.plain (refuse_beside s _ _ _)
  rw [if_neg hrefuse]
  rcases s.findWindow id with _ | i
  · exact .refl s
  · exact adjust_path sys s i rfl rfl

theorem freeCursor_path (s : Server) (id : UInt32) :
    Path sys EditKind.plain s (s.freeCursor id).2 := by
  unfold freeCursor
  rcases s.findCursor id with _ | i
  · exact Quiet.plain (refuse_beside s _ _ _)
  dsimp only
  split_ifs
  · exact Quiet.plain (refuse_beside s _ _ _)
  · exact (hideCursor_path sys trivial s id).trans (Quiet.plain (setCursor_beside _ i _))

/-! ## Atoms and properties -/

theorem setAtom_beside (s : Server) (i : ℕ) (a : Atom) :
    Beside P s (s.setAtom i a) := .aside rfl rfl rfl

theorem makeAtom_beside (s : Server) (name : ℕ → UInt8) (length : ℕ)
    (onlyIfExists : Bool) : Beside P s (s.makeAtom name length onlyIfExists).2 := by
  unfold makeAtom
  dsimp only
  split
  · exact .refl s
  · split
    · exact .refl s
    · split
      · exact .refl s
      · exact setAtom_beside s _ _

theorem internAtom_beside (s : Server) : Beside P s s.internAtom.2 := by
  have hmake := makeAtom_beside (P := P) s (fun k => s.payload (8 + k)) (s.field16 4).toNat
    (s.payload 1 != 0)
  unfold internAtom
  dsimp only
  split_ifs
  · exact refuse_beside s _ _ _
  · exact hmake.trans (refuse_beside _ _ _ _)
  · exact hmake.trans (reply_beside _ _ _)

theorem getAtomName_beside (s : Server) (id : UInt32) :
    Beside P s (s.getAtomName id).2 := by
  unfold getAtomName
  rcases s.findAtom id with _ | i
  · exact refuse_beside s _ _ _
  · dsimp only
    split_ifs
    · exact refuse_beside s _ _ _
    · exact reply_beside s _ _

theorem propertySlot_beside (s : Server) (window atom : UInt32)
    {r : ℕ × Server} (h : s.propertySlot window atom = some r) : Beside P s r.2 := by
  unfold propertySlot at h
  rcases hfind : s.findProperty window atom with _ | i
  · rw [hfind] at h
    obtain ⟨i, -, rfl⟩ := Option.map_eq_some_iff.1 h
    exact setProperty_beside s i _
  · rw [hfind] at h
    obtain rfl : (i, s) = r := Option.some.inj h
    exact .refl s

theorem changeProperty_beside (s : Server) (id : UInt32) :
    Beside P s (s.changeProperty id).2 := by
  unfold changeProperty
  dsimp only
  split
  · exact refuse_beside s _ _ _
  · rcases hslot : s.propertySlot id (s.field32 8) with _ | ⟨i, t⟩
    · exact refuse_beside s _ _ _
    · have ht := propertySlot_beside (P := P) s _ _ hslot
      dsimp only
      split
      · exact ht.trans (refuse_beside _ _ _ _)
      · exact ht.trans ((setProperty_beside _ _ _).trans (propertyNotify_beside _ _ _ _))

theorem dropProperty_beside (s : Server) (window atom : UInt32) :
    Beside P s (s.dropProperty window atom) := by
  unfold dropProperty
  rcases s.findProperty window atom with _ | i
  · exact .refl s
  · exact setProperty_beside s i _

theorem deleteProperty_beside (s : Server) (id : UInt32) :
    Beside P s (s.deleteProperty id).2 :=
  (dropProperty_beside s _ _).trans (propertyNotify_beside _ _ _ _)

theorem getProperty_beside (s : Server) (id : UInt32) :
    Beside P s (s.getProperty id).2 := by
  unfold getProperty
  split_ifs
  · exact refuse_beside s _ _ _
  rcases s.findProperty id (s.field32 8) with _ | i
  · exact reply_beside s _ _
  dsimp only
  split_ifs
  · exact reply_beside s _ _
  · exact refuse_beside s _ _ _
  · exact (reply_beside s _ _).trans (setProperty_beside _ i _)
  · exact reply_beside s _ _

theorem listProperties_beside (s : Server) (id : UInt32) :
    Beside P s (s.listProperties id).2 := by
  unfold listProperties
  dsimp only
  split_ifs
  · exact refuse_beside s _ _ _
  · exact refuse_beside s _ _ _
  · exact reply_beside s _ _

theorem sendEvent_beside (s : Server) (id : UInt32) :
    Beside P s (s.sendEvent id).2 := by
  unfold sendEvent
  rcases s.findWindow id with _ | i
  · exact refuse_beside s _ _ _
  · dsimp only
    split_ifs
    · exact refuse_beside s _ _ _
    · exact event_beside s _ _

/-! ## Pixmaps and graphics contexts -/

theorem setPixmap_path (s : Server) (i : ℕ) {p : Pixmap} (h : p.used = false ∨ p.width = 0
    ∨ Created sys p.surfaceHandle p.width.toNat p.height.toNat) :
    Path sys EditKind.plain s (s.setPixmap i p) := .single (.pixmap h) trivial

theorem refusePixmap_path (s : Server) (i : ℕ) (id : UInt32) :
    Path sys EditKind.plain s (s.refusePixmap i id).2 :=
  (setPixmap_path sys s i (.inl rfl)).trans (Quiet.plain (refuse_beside _ _ _ _))

theorem makePixmap_path (s : Server) (i : ℕ) (id : UInt32) (width height : UInt16)
    (depth : UInt8) : Path sys EditKind.plain s (s.makePixmap sys i id width height depth).2 := by
  have hensure := ensureDesktopHandles_quiet sys s
  unfold makePixmap
  dsimp only
  set t := (s.ensureDesktopHandles sys).2
  have hcall : Quiet t (t.call sys (.surfaceCreate t.surfaceFactoryHandle width.toNat
    height.toNat)).2 := call_beside t sys rfl
  split_ifs with hhandles hfail
  · exact hensure.plain.trans (refusePixmap_path sys t i id)
  · exact hensure.plain.trans (hcall.plain.trans (refusePixmap_path sys _ i id))
  · rw [not_or, UInt64.not_lt] at hfail
    exact hensure.plain.trans (hcall.plain.trans (setPixmap_path sys _ i
      (.inr (.inr ⟨_, _, hfail.1, hfail.2, rfl⟩))))

theorem createPixmap_path (s : Server) (id : UInt32) :
    Path sys EditKind.plain s (s.createPixmap sys id).2 := by
  unfold createPixmap
  dsimp only
  split
  · exact Quiet.plain (refuse_beside s _ _ _)
  rcases halloc : s.allocatePixmap id s.incoming.clientId with _ | ⟨i, t⟩
  · exact Quiet.plain (refuse_beside s _ _ _)
  have ht : Path sys EditKind.plain s t := by
    unfold allocatePixmap at halloc
    split_ifs at halloc
    obtain ⟨j, -, hj⟩ := Option.map_eq_some_iff.1 halloc
    obtain rfl := (Prod.mk.inj hj).2
    exact setPixmap_path sys s j (.inr (.inl rfl))
  exact ht.trans (makePixmap_path sys t i id _ _ _)

theorem freePixmap_path (s : Server) (id : UInt32) :
    Path sys EditKind.plain s (s.freePixmap sys id).2 := by
  unfold freePixmap
  rcases s.findPixmap id with _ | i
  · exact Quiet.plain (refuse_beside s _ _ _)
  dsimp only
  split_ifs
  · exact Quiet.plain (refuse_beside s _ _ _)
  · exact (call'_quiet sys s rfl).plain.trans (setPixmap_path sys _ i (.inl rfl))

theorem createGc_beside (s : Server) (id : UInt32) :
    Beside P s (s.createGc id).2 := by
  unfold createGc
  dsimp only
  split
  · exact refuse_beside s _ _ _
  rcases halloc : s.allocateGc id s.incoming.clientId with _ | ⟨i, t⟩
  · exact refuse_beside s _ _ _
  have ht : Beside P s t := by
    unfold allocateGc at halloc
    split_ifs at halloc
    obtain ⟨j, -, hj⟩ := Option.map_eq_some_iff.1 halloc
    obtain rfl := (Prod.mk.inj hj).2
    exact setGc_beside s j _
  dsimp only
  split
  · exact ht.trans ((setGc_beside _ _ _).trans (refuse_beside _ _ _ _))
  · exact ht.trans (setGc_beside _ _ _)

theorem changeGc_beside (s : Server) (id : UInt32) :
    Beside P s (s.changeGc id).2 := by
  unfold changeGc
  rcases s.findGc id with _ | i
  · exact refuse_beside s _ _ _
  dsimp only
  split_ifs
  · exact refuse_beside s _ _ _
  · exact setGc_beside s i _
  · exact setGc_beside s i _
  · exact refuse_beside s _ _ _

theorem freeGc_beside (s : Server) (id : UInt32) :
    Beside P s (s.freeGc id).2 := by
  unfold freeGc
  rcases s.findGc id with _ | i
  · exact refuse_beside s _ _ _
  dsimp only
  split_ifs
  · exact refuse_beside s _ _ _
  · exact setGc_beside s i _

/-! ## Drawing -/

theorem fillRectangles_path {I : Server → Prop}
    {fill : UInt16 → UInt16 → UInt16 → UInt16 → Server → ℤ × Server}
    (hfill : ∀ x y width height s, I s → Path sys EditKind.plain s (fill x y width height s).2
      ∧ I (fill x y width height s).2) : ∀ (l : List ℕ) (s : Server), I s →
      Path sys EditKind.plain s (fillRectangles sys fill l s).2
  | [], s, _ => .refl s
  | index :: l, s, hs => by
    unfold fillRectangles
    dsimp only
    obtain ⟨hpath, hI⟩ := hfill (s.field16 (12 + index * 8)) (s.field16 (12 + index * 8 + 2))
      (s.field16 (12 + index * 8 + 4)) (s.field16 (12 + index * 8 + 6)) s hs
    split_ifs
    · exact hpath
    · exact hpath.trans (fillRectangles_path hfill l _ hI)

theorem polyFillRectangle_path (s : Server) (id : UInt32) :
    Path sys EditKind.plain s (s.polyFillRectangle sys id).2 := by
  unfold polyFillRectangle
  rcases s.findGc (s.field32 8) with _ | gc
  · exact Quiet.plain (refuse_beside s _ _ _)
  dsimp only
  split
  · exact Quiet.plain (refuse_beside s _ _ _)
  have hend : ∀ (r : ℤ × Server), Path sys EditKind.plain s r.2 → Path sys EditKind.plain s
      (if r.1 < 0 then r.2.refuse (r.2.fillError r.1) Opcode.polyFillRectangle id
        else (false, r.2)).2 := fun r hr => by
    split_ifs
    · exact hr.trans (Quiet.plain (refuse_beside _ _ _ _))
    · exact hr
  rcases hw : s.findWindow id with _ | i
  · rcases hp : s.findPixmap id with _ | p
    · exact Quiet.plain (refuse_beside s _ _ _)
    · obtain ⟨hlt, hused⟩ := findPixmap_some hp
      refine hend _ (fillRectangles_path sys (I := fun t => (t.pixmaps p).used = true) ?_ _ s hused)
      intro x y width height t ht
      refine ⟨fillPixmap_path sys t hlt ht _ _ _ _ _, ?_⟩
      rw [(fillPixmap_within sys t p _ _ _ _ _).pixmaps]
      exact ht
  · obtain ⟨hi, hused, -⟩ := findWindow_some hw
    refine hend _ (fillRectangles_path sys (I := fun t => (t.window i).used ≠ 0) ?_ _ s hused)
    intro x y width height t ht
    have hfill := fillRectangle_path sys t hi ht (s.gcs gc).foreground x y width height
    exact ⟨hfill, by rw [hfill.used]; exact ht⟩

theorem putImageRequest_path (s : Server) (id : UInt32) :
    Path sys EditKind.plain s (s.putImageRequest sys id).2 := by
  unfold putImageRequest
  rcases s.findGc (s.field32 8) with _ | gc
  · exact Quiet.plain (refuse_beside s _ _ _)
  dsimp only
  split
  · exact Quiet.plain (refuse_beside s _ _ _)
  have hput := putImage_path sys s id (s.field16 16) (s.field16 18) (s.field16 12) (s.field16 14)
    fun k => s.payload (24 + k)
  split
  · exact hput.trans (Quiet.plain (refuse_beside _ _ _ _))
  · exact hput

theorem copyAreaRequest_path (s : Server) (source : UInt32) :
    Path sys EditKind.plain s (s.copyAreaRequest sys source).2 := by
  have hcopy := copyArea_path sys s source (s.field32 8) (s.field16 16) (s.field16 18)
    (s.field16 20) (s.field16 22) (s.field16 24) (s.field16 26)
  unfold copyAreaRequest
  dsimp only
  split
  · exact Quiet.plain (refuse_beside s _ _ _)
  split
  · exact Quiet.plain (refuse_beside s _ _ _)
  split
  · exact Quiet.plain (refuse_beside s _ _ _)
  split
  · exact hcopy.trans (Quiet.plain (refuse_beside _ _ _ _))
  · exact hcopy

theorem getImage_path (s : Server) (id : UInt32) :
    Path sys EditKind.plain s (s.getImage sys id).2 := by
  obtain ⟨hpath, hshows⟩ := drawableSurface_spec sys s id
  have hrefuse : ∀ t : Server, Path sys EditKind.plain t
      (t.refuse (if t.validDrawable id then 2 else 9) Opcode.getImage id).2 :=
    fun t => Quiet.plain (refuse_beside t _ _ _)
  unfold getImage
  dsimp only
  split
  · exact hrefuse s
  rcases hd : s.drawableSurface sys id with ⟨_ | d, t⟩
  · rw [hd] at hpath
    exact hpath.trans (hrefuse t)
  rw [hd] at hpath hshows
  dsimp only
  by_cases hout : d.width < (s.field16 8).toNat + (s.field16 12).toNat
      ∨ d.height < (s.field16 10).toNat + (s.field16 14).toNat
  · rw [if_pos hout]
    exact hpath.trans (hrefuse t)
  rw [if_neg hout]
  have hmap : Quiet t (t.call sys (.surfaceMap d.surface)).2 := call_beside t sys rfl
  by_cases hfail : (t.call sys (.surfaceMap d.surface)).1 = failure
  · rw [if_pos hfail]
    exact hpath.trans (Quiet.plain (hmap.trans (refuse_beside _ _ _ _)))
  rw [if_neg hfail]
  have hread := readPixels_within sys d.surface d.width d.height
    ((List.range ((s.field16 12).toNat * (s.field16 14).toNat)).map fun k =>
      ((s.field16 10).toNat + k / (s.field16 12).toNat) * d.width + (s.field16 8).toNat
        + k % (s.field16 12).toNat) (t.call sys (.surfaceMap d.surface)).2 fun index hindex => by
    obtain ⟨k, hk, rfl⟩ := List.mem_map.1 hindex
    have hlt := List.mem_range.1 hk
    have hwidth : 0 < (s.field16 12).toNat := Nat.pos_of_ne_zero fun h => by simp [h] at hlt
    have hrow : k / (s.field16 12).toNat < (s.field16 14).toNat :=
      Nat.div_lt_of_lt_mul hlt
    have hcolumn := Nat.mod_lt k hwidth
    have : ((s.field16 10).toNat + k / (s.field16 12).toNat) * d.width
        + ((s.field16 8).toNat + k % (s.field16 12).toNat) + 1 ≤ d.width * d.height :=
      place_le (by omega) (by omega)
    omega
  refine hpath.trans (hmap.plain.trans ((hread.drawn sys fun hsys =>
    hmap.shows (hshows hsys d rfl)).trans ((Quiet.plain (t := call' _ sys
      (.surfaceUnmap d.surface)) (call'_quiet sys _ rfl)).trans ?_)))
  exact Quiet.plain (reply_beside _ _ _)

theorem polyText_path (s : Server) (opcode : UInt8) (id : UInt32) (start : ℕ)
    {draw : UInt32 → UInt16 → UInt16 → (ℕ → UInt8) → UInt8 → ℤ × Server}
    (hdraw : ∀ foreground x y text length,
      Path sys EditKind.plain s (draw foreground x y text length).2) :
    Path sys EditKind.plain s (s.polyText opcode id start draw).2 := by
  unfold polyText
  rcases s.findGc (s.field32 8) with _ | gc
  · exact Quiet.plain (refuse_beside s _ _ _)
  dsimp only
  split
  · exact Quiet.plain (refuse_beside s _ _ _)
  split
  · exact (hdraw _ _ _ _ _).trans (Quiet.plain (refuse_beside _ _ _ _))
  · exact hdraw _ _ _ _ _

theorem polyText8_path (s : Server) (id : UInt32) :
    Path sys EditKind.plain s (s.polyText8 sys id).2 :=
  polyText_path sys s _ id 17 fun _ _ _ _ _ => drawText_path sys s _ _ _ _ _ _

theorem polyText8Scaled_path (s : Server) (id : UInt32) :
    Path sys EditKind.plain s (s.polyText8Scaled sys id).2 :=
  polyText_path sys s _ id 18 fun _ _ _ _ _ => drawTextScaled_path sys s _ _ _ _ _ _ _

/-! ## The requests that do more -/

/-- The record in a slot is set, and nothing else but what a quiet step changes. -/
structure Sets (i : ℕ) (w : Window) (s t : Server) : Prop extends Sheds s t where
  window : ∀ j, t.window j = if j = i then w else s.window j
  pixmaps : t.pixmaps = s.pixmaps
  rootEventMask : t.rootEventMask = s.rootEventMask
  rootRedirectClient : t.rootRedirectClient = s.rootRedirectClient
  assembly : t.assembly = s.assembly
  released : t.released = s.released
  calls : ∃ new, t.calls = new ++ s.calls ∧ ∀ c ∈ new, c.draws = false

theorem Sets.of_quiet (h : Quiet (s.setWindow i w) t) :
    Sets i w s t where
  kept := h.kept
  window j := by rw [h.window, window_setWindow]
  pixmaps := h.pixmaps
  rootEventMask := congrArg Core.rootEventMask h.core
  rootRedirectClient := congrArg Core.rootRedirectClient h.core
  assembly := h.assembly
  released := congrArg Core.released h.core
  calls := h.calls

theorem createWindow_cases (s : Server) (id : UInt32) :
    Quiet s (s.createWindow id).2
      ∨ ∃ i w, s.incoming.payloadLength.toNat = 32
        ∧ s.field32 8 = rootWindow ∧ (s.allocateWindow id s.incoming.clientId).isSome
        ∧ Table.firstIndex windowLimit (fun i => (s.window i).used = 0) = some i
        ∧ w.surfaceHandle = 0
        ∧ (w.used = 0 ∨ (w.id = id ∧ w.parent = rootWindow ∧ w.width ≠ 0 ∧ w.height ≠ 0))
        ∧ Sets i w s (s.createWindow id).2 := by
  unfold createWindow
  by_cases hbad : s.incoming.payloadLength ≠ 32 ∨ s.field32 8 ≠ rootWindow
  · rw [if_pos hbad]
    exact .inl (refuse_beside s _ _ _)
  rw [if_neg hbad]
  simp only [not_or, not_not] at hbad
  have hlength : s.incoming.payloadLength.toNat = 32 := by rw [hbad.1]; rfl
  rcases halloc : s.allocateWindow id s.incoming.clientId with _ | ⟨i, t⟩
  · exact .inl (refuse_beside s _ _ _)
  right
  have hslot : Table.firstIndex windowLimit (fun i => (s.window i).used = 0) = some i
      ∧ t = s.setWindow i { id := id, used := 1 } := by
    unfold allocateWindow at halloc
    split_ifs at halloc
    obtain ⟨j, hj, heq⟩ := Option.map_eq_some_iff.1 halloc
    obtain ⟨rfl, rfl⟩ := Prod.mk.inj heq
    exact ⟨hj, rfl⟩
  obtain ⟨hi, rfl⟩ := hslot
  have htwice : ∀ w t, Quiet ((s.setWindow i { id := id, used := 1 }).setWindow i w) t →
      Sets i w s t := fun w t h =>
    { Sets.of_quiet h with
      window := fun j => by
        rw [(Sets.of_quiet h).window, window_setWindow]
        split_ifs <;> rfl }
  dsimp only
  split_ifs with hmask hempty
  · exact ⟨i, _, hlength, hbad.2, rfl, hi, by rw [window_setWindow_self], .inl rfl,
      htwice _ _ (refuse_beside _ _ _ _)⟩
  · exact ⟨i, _, hlength, hbad.2, rfl, hi, by rw [window_setWindow_self], .inl rfl,
      htwice _ _ (compose_beside _ _ _ _ _)⟩
  · exact ⟨i, _, hlength, hbad.2, rfl, hi, by rw [window_setWindow_self],
      .inr ⟨by rw [window_setWindow_self], rfl, not_or.1 hempty⟩, htwice _ _ (.refl _)⟩

/-- `ConfigureWindow` gives values the server knows, and no window manager is asked. -/
structure Configures (s : Server) : Prop where
  mask : s.field16 8 &&& ~~~127 = 0
  length : s.incoming.payloadLength.toNat = 12 + valueCount (s.field16 8) * 4
  direct : s.redirected = false

theorem sets_of_movePublished {s t u : Server}
    (h : (s.setWindow i w).movePublished sys i = some t) (hu : Quiet t u) : Sets i w s u :=
  Sets.of_quiet ((movePublished_quiet sys h).trans hu)

theorem configureWindow_cases {r : Bool × Server}
    (h : s.configureWindow sys i = some r) :
    Quiet s r.2 ∨ s.Configures
      ∧ Sets i (applyConfigure s.payload (s.field16 8) (s.window i)) s r.2 := by
  unfold configureWindow at h
  dsimp only at h
  split_ifs at h with hbad hredirected
  · obtain rfl := Option.some.inj h
    exact .inl (refuse_beside s _ _ _)
  · obtain rfl := Option.some.inj h
    exact .inl (event_beside s _ _)
  · rw [not_or, not_not, not_not] at hbad
    obtain ⟨t, ht, rfl⟩ := Option.map_eq_some_iff.1 h
    refine .inr ⟨⟨hbad.1, hbad.2, by simpa using hredirected⟩,
      sets_of_movePublished sys ht ?_⟩
    split_ifs
    · exact event_beside t _ _
    · exact .refl t

theorem reparentWindow_cases {r : Bool × Server}
    (h : s.reparentWindow sys i = some r) :
    Quiet s r.2 ∨ (s.field32 8 = rootWindow ∨ (s.findWindow (s.field32 8)).isSome)
      ∧ Sets i { s.window i with parent := s.field32 8, x := s.field16 12, y := s.field16 14 } s
        r.2 := by
  unfold reparentWindow at h
  dsimp only at h
  split_ifs at h with hbad
  · obtain rfl := Option.some.inj h
    exact .inl (refuse_beside s _ _ _)
  · obtain ⟨t, ht, rfl⟩ := Option.map_eq_some_iff.1 h
    refine .inr ⟨?_, sets_of_movePublished sys ht ?_⟩
    · by_cases hroot : s.field32 8 = rootWindow
      · exact .inl hroot
      · exact .inr (Option.isSome_iff_ne_none.2 fun hnone => hbad ⟨hroot, hnone⟩)
    · split_ifs
      · exact event_beside t _ _
      · exact .refl t

theorem refuseSurface_quiet (s : Server) (supplied id : UInt32) :
    Quiet s (s.refuseSurface sys supplied id).2 :=
  (closeSurface_quiet sys s supplied).trans (refuse_beside _ _ _ _)

/-- The surface supplied with `AttachSurface` has been measured, and has the size it came with. -/
structure Measured (s : Server) (sys : Answers) : Prop where
  real : s.field32 8 ≠ 0 ∧ s.field32 8 ≠ fallbackSurface
  width : ∃ calls, (sys (.handleQuery (s.field32 8) 0 :: calls)).toNat = (s.field16 12).toNat
  height : ∃ calls, (sys (.handleQuery (s.field32 8) 1 :: calls)).toNat = (s.field16 14).toNat

theorem Sets.of_besides {s t u : Server} (hst : Quiet s t)
    (htu : Quiet (t.setWindow i w) u) : Sets i w s u where
  toSheds := hst.toSheds.trans (Sets.of_quiet htu).toSheds
  window j := by rw [(Sets.of_quiet htu).window, hst.window]
  pixmaps := (Sets.of_quiet htu).pixmaps.trans hst.pixmaps
  rootEventMask := (Sets.of_quiet htu).rootEventMask.trans (congrArg Core.rootEventMask hst.core)
  rootRedirectClient :=
    (Sets.of_quiet htu).rootRedirectClient.trans (congrArg Core.rootRedirectClient hst.core)
  assembly := (Sets.of_quiet htu).assembly.trans hst.assembly
  released := (Sets.of_quiet htu).released.trans (congrArg Core.released hst.core)
  calls := by
    obtain ⟨new, hnew, hdraws⟩ := htu.calls
    obtain ⟨old, hold, hdraws'⟩ := hst.calls
    refine ⟨new ++ old, ?_, fun c hc => (List.mem_append.1 hc).elim (hdraws c) (hdraws' c)⟩
    rw [List.append_assoc, ← hold]
    exact hnew

theorem takeSurface_sets (hst : Quiet s t) (i : ℕ) (supplied : UInt32) :
    Sets i { s.window i with surfaceHandle := supplied, compositorSurface := 0 } s
      (t.takeSurface sys i supplied) := by
  have hclose := closeSurface_quiet sys t (t.window i).surfaceHandle
  set u := t.closeSurface sys (t.window i).surfaceHandle
  have hu : Quiet s u := hst.trans hclose
  rw [← hu.window i]
  exact Sets.of_besides hu (.refl _)

theorem attachSurface_cases (s : Server) (id : UInt32) :
    Quiet s (s.attachSurface sys id).2
      ∨ s.Measured sys ∧ ∃ i, s.findWindow id = some i
        ∧ Sets i { s.window i with surfaceHandle := s.field32 8, compositorSurface := 0 } s
          (s.attachSurface sys id).2 := by
  unfold attachSurface
  rcases hfind : s.findWindow id with _ | i
  · exact .inl (refuseSurface_quiet sys s _ _)
  dsimp only
  have hwidth : Quiet s (s.call sys (.handleQuery (s.field32 8) 0)).2 := call_beside s sys rfl
  set t := (s.call sys (.handleQuery (s.field32 8) 0)).2
  have hheight : Quiet t (t.call sys (.handleQuery (s.field32 8) 1)).2 := call_beside t sys rfl
  split_ifs with hbad hw hh
  · exact .inl (refuseSurface_quiet sys s _ _)
  · exact .inl (hwidth.trans (refuseSurface_quiet sys t _ _))
  · exact .inl (hwidth.trans (hheight.trans (refuseSurface_quiet sys _ _ _)))
  · simp only [not_or, not_not] at hbad hw hh
    exact .inr ⟨⟨⟨hbad.2.2.1, hbad.2.2.2.1⟩, ⟨_, hw⟩, ⟨_, hh⟩⟩, i, rfl,
      takeSurface_sets sys (hwidth.trans hheight) i _⟩

theorem killClient_cases (s : Server) (id : UInt32) :
    Quiet s (s.killClient sys id).2
      ∨ s.resourceOwner id ≠ 0
        ∧ (s.killClient sys id).2 = s.releaseClient sys (s.resourceOwner id) := by
  unfold killClient
  split_ifs with howner
  · exact .inl (refuse_beside s _ _ _)
  · exact .inr ⟨howner, rfl⟩

end Server

end DemonX

end DemonOS
