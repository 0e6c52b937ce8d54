import DemonOS.Proofs.DemonX.CopyArea

/-!
# A new surface beside another

The server makes the surface of a window when it first draws on it, and paints the background there.
The kernel gives the new surface a range of the arena of its own, and a handle that was free, so a
surface there already keeps its size and its pixels (`createWindowSurface_undisturbed`).
-/

namespace DemonOS

namespace DemonX

namespace Server

structure Undisturbed (K : SurfaceKernel) (d : Drawable) (start : ℕ) (g : SurfaceGrant)
    (K' : SurfaceKernel) : Prop where
  arena : ArenaInv K'.surfaces
  grant : K'.grant d.surface = some g
  places : K'.Places d.surface start d.width d.height
  pixels : ∀ p, start ≤ p → p < start + d.width * d.height →
    K'.surfaces.pixels p = K.surfaces.pixels p

section

variable {k : SurfaceKernel} {other : Answers} {K K' : SurfaceKernel} {d : Drawable} {start : ℕ}
  {g : SurfaceGrant} {surface : UInt32}

def Elsewhere (K : SurfaceKernel) (surface : UInt32) (g : SurfaceGrant) : Prop :=
  ∀ g', K.grant surface = some g' → g'.object ≠ g.object

theorem Undisturbed.write (h : Undisturbed K d start g K') (hother : Elsewhere K' surface g)
    (pixels : List UInt32) (offset : ℕ) (o : UInt64) :
    Undisturbed K d start g (K'.answer o (.surfaceWrite surface pixels offset)).2
      ∧ Elsewhere (K'.answer o (.surfaceWrite surface pixels offset)).2 surface g := by
  have harena := answer_inv h.arena o (.surfaceWrite surface pixels offset)
  dsimp only [SurfaceKernel.answer] at harena ⊢
  rcases hwrite : K'.write surface pixels offset with _ | K''
  · exact ⟨h, hother⟩
  rw [hwrite] at harena
  obtain ⟨g', i, hgrant, hresolve, hfits, rfl⟩ := SurfaceKernel.write_spec hwrite
  obtain ⟨g₀, j, hgrant₀, hresolve₀, hstart, hwidth, hheight⟩ := h.places.object
  obtain rfl := Option.some.inj (h.grant.symm.trans hgrant₀)
  obtain ⟨hid, hi, hactive⟩ := Surfaces.resolve_eq_some.1 hresolve
  obtain ⟨hid₀, hj, hactive₀⟩ := Surfaces.resolve_eq_some.1 hresolve₀
  have hne : i ≠ j := by
    rintro rfl
    exact hother g' hgrant (hid.trans hid₀.symm)
  have hroom := (h.arena.placed i hi hactive).pixels_le
  have hroom₀ := (h.arena.placed j hj hactive₀).pixels_le
  have hapart := h.arena.apart i hi j hj hne hactive hactive₀
  unfold SurfaceObject.Apart at hapart
  rw [hwidth, hheight] at hroom₀
  refine ⟨⟨harena, h.grant, h.places, fun p hlo hhi => ?_⟩, hother⟩
  rw [← h.pixels p hlo hhi]
  exact if_neg (by omega)

theorem Undisturbed.create (h : Undisturbed K d start g K') {K'' : SurfaceKernel} {handle : UInt64}
    {width height : ℕ} (hcreate : K'.create handle width height = some K'') :
    Undisturbed K d start g K'' ∧ Elsewhere K'' handle.toUInt32 g := by
  obtain ⟨⟨id, surfaces⟩, ⟨-, hfree, hcreated⟩, rfl⟩ := SurfaceKernel.create_spec hcreate
  have harena := arenaInv_create h.arena hcreated
  obtain ⟨i, o, rfl, hi, hinactive, rfl, -⟩ := surfaceCreate_placed h.arena hcreated
  obtain ⟨g₀, j, hgrant₀, hresolve₀, hstart, hwidth, hheight⟩ := h.places.object
  obtain rfl := Option.some.inj (h.grant.symm.trans hgrant₀)
  obtain ⟨hid₀, hj, hactive₀⟩ := Surfaces.resolve_eq_some.1 hresolve₀
  have hne : j ≠ i := by
    rintro rfl
    exact Bool.false_ne_true (hinactive.symm.trans hactive₀)
  have hsurface : d.surface ≠ handle.toUInt32 := by
    intro heq
    rw [heq] at hgrant₀
    exact nomatch hfree.symm.trans hgrant₀
  have hobject : (K'.surfaces.setObject i o).objects j = K'.surfaces.objects j := by
    rw [Surfaces.setObject_objects, Function.update_of_ne hne]
  have hresolve : (K'.surfaces.setObject i o).resolve g.object = some j :=
    Surfaces.resolve_eq_some.2 ⟨hid₀, hj, by rw [hobject]; exact hactive₀⟩
  have hgrant : Function.update K'.grant handle.toUInt32 (some ⟨i + 1, true⟩) d.surface = some g := by
    rw [Function.update_of_ne hsurface]
    exact h.grant
  refine ⟨⟨harena, hgrant, ?_, h.pixels⟩, fun g' hg' => ?_⟩
  · unfold SurfaceKernel.Places SurfaceKernel.data
    dsimp only
    rw [hgrant]
    dsimp only [Surfaces.surfaceData]
    rw [hresolve]
    dsimp only
    rw [hobject, hstart, hwidth, hheight]
  · dsimp only at hg'
    rw [Function.update_self] at hg'
    obtain rfl := Option.some.inj hg'
    dsimp only
    omega

variable {s : Server} {i : ℕ}

theorem paintBackground_undisturbed (surface : UInt32) (count : ℕ)
    (h : Undisturbed K d start g (k.behind other s)) (hother : Elsewhere (k.behind other s) surface g) :
    Undisturbed K d start g (k.behind other (s.paintBackground (k.answers other) surface count).2) := by
  have hpainted := forEach_inv
    (f := fun part s => s.surfaceWrite (k.answers other) surface part.2 part.1)
    (P := fun u => Undisturbed K d start g (k.behind other u) ∧ Elsewhere (k.behind other u) surface g)
    (l := chunks 0 count) (s := s.fillDraw drawChunkPixels backgroundColor)
    (fun part _ u hu => hu.1.write hu.2 _ _ _) ⟨h, hother⟩
  unfold paintBackground
  dsimp only
  split_ifs
  · exact hpainted.1
  · exact hpainted.1

theorem makeSurface_undisturbed (h : Undisturbed K d start g (k.behind other s)) :
    Undisturbed K d start g (k.behind other (s.makeSurface (k.answers other) i).2) := by
  unfold makeSurface
  dsimp only
  have hanswer : (s.call (k.answers other) (.surfaceCreate s.surfaceFactoryHandle
      (clampedWidth (s.window i)) (clampedHeight (s.window i)))).1
    = ((k.behind other s).answer (other (.surfaceCreate s.surfaceFactoryHandle
      (clampedWidth (s.window i)) (clampedHeight (s.window i)) :: s.calls))
      (.surfaceCreate s.surfaceFactoryHandle (clampedWidth (s.window i))
        (clampedHeight (s.window i)))).1 := rfl
  have hbehind : k.behind other (s.call (k.answers other) (.surfaceCreate s.surfaceFactoryHandle
      (clampedWidth (s.window i)) (clampedHeight (s.window i)))).2
    = ((k.behind other s).answer (other (.surfaceCreate s.surfaceFactoryHandle
      (clampedWidth (s.window i)) (clampedHeight (s.window i)) :: s.calls))
      (.surfaceCreate s.surfaceFactoryHandle (clampedWidth (s.window i))
        (clampedHeight (s.window i)))).2 := rfl
  generalize s.call (k.answers other) (.surfaceCreate s.surfaceFactoryHandle
    (clampedWidth (s.window i)) (clampedHeight (s.window i))) = created at hanswer hbehind ⊢
  generalize other (.surfaceCreate s.surfaceFactoryHandle (clampedWidth (s.window i))
    (clampedHeight (s.window i)) :: s.calls) = o at hanswer hbehind
  dsimp only [SurfaceKernel.answer] at hanswer hbehind
  rcases hcreate : (k.behind other s).create o (clampedWidth (s.window i))
    (clampedHeight (s.window i)) with _ | K''
  · rw [hcreate] at hanswer hbehind
    rw [if_pos (.inl hanswer)]
    have hfall : k.behind other (created.2.fallBack i) = k.behind other created.2 := rfl
    rw [hfall, hbehind]
    exact h
  · rw [hcreate] at hanswer hbehind
    dsimp only at hanswer hbehind
    obtain ⟨hkept, hother⟩ := h.create hcreate
    rw [← hbehind] at hkept hother
    rw [← hanswer] at hother
    split_ifs
    · exact hkept
    · exact paintBackground_undisturbed _ _ hkept hother

/-- A window given a surface leaves the other surfaces alone. -/
theorem createWindowSurface_undisturbed (h : Undisturbed K d start g (k.behind other s)) :
    Undisturbed K d start g (k.behind other (s.createWindowSurface (k.answers other) i).2) := by
  have hopen : k.behind other (s.openFactory (k.answers other)) = k.behind other s := by
    unfold openFactory
    split_ifs
    · rfl
    · rfl
  unfold createWindowSurface
  dsimp only
  split_ifs
  · exact h
  · rw [← hopen] at h
    exact h
  · rw [← hopen] at h
    exact makeSurface_undisturbed h

theorem drawableSurface_undisturbed (id : UInt32) (h : Undisturbed K d start g (k.behind other s)) :
    Undisturbed K d start g (k.behind other (s.drawableSurface (k.answers other) id).2) := by
  unfold drawableSurface
  rcases s.findPixmap id with _ | p
  · rcases s.findWindow id with _ | i
    · exact h
    · dsimp only
      split_ifs <;> exact createWindowSurface_undisturbed h
  · exact h

end

end Server

end DemonX

end DemonOS
