import DemonOS.Proofs.DemonX.Refusals

/-!
# Which refusals keep the tables

Three kinds of requests break the rule: a `CreateWindow` of no size, whose error is not sent
(`Sizeless`), a `ChangeProperty` that adds to a property that is not there, which takes its slot, and
a drawing request that fails on a window it has made a surface for (`Overreaches`). Each handler is
shown to keep the rule where its request is none of these, and to break it where it is one.
-/

namespace DemonOS

namespace DemonX

namespace Server

/-! ## What goes wrong -/

def Bare (s : Server) (id : UInt32) : Prop :=
  ∃ i, s.findWindow id = some i ∧ (s.window i).surfaceHandle = 0

def BareDrawable (s : Server) (id : UInt32) : Prop := s.findPixmap id = none ∧ s.Bare id

def HasSurface (s : Server) (id : UInt32) : Prop :=
  (s.findPixmap id).isSome ∨ ∃ i, s.findWindow id = some i ∧ (s.window i).surfaceHandle ≠ 0
    ∧ (s.window i).surfaceHandle ≠ fallbackSurface

/-- A `CreateWindow` that is good but for its size. -/
structure Sizeless (s : Server) : Prop where
  admitted : s.Admitted
  opcode : s.payload 0 = Opcode.createWindow
  length : s.incoming.payloadLength = 32
  parent : s.field32 8 = rootWindow
  owned : ownsId (s.field32 4) s.incoming.clientId = true
  fresh : s.findWindow (s.field32 4) = none
  room : ∃ i < windowLimit, (s.window i).used = 0
  mask : s.field32 28 &&& ~~~2 = 0
  size : s.field16 16 = 0 ∨ s.field16 18 = 0

/-- A `ChangeProperty` that is good in itself adds to a property that is not there, and there is a
slot for it. -/
structure AddsToNothing (s : Server) (id : UInt32) : Prop where
  window : s.validPropertyWindow id = true
  atom : s.field32 8 ≠ 0
  type : s.field32 12 ≠ 0
  format : itemBytes (s.payload 16) ≠ 0
  fits : (s.field32 20 * itemBytes (s.payload 16)).toNat ≤ propertyDataBytes
  length : s.incoming.payloadLength.toNat
    = 24 + padded (s.field32 20 * itemBytes (s.payload 16)).toNat
  mode : s.payload 1 ≠ 0 ∧ s.payload 1 ≤ 2
  missing : s.findProperty id (s.field32 8) = none
  room : ∃ i < propertyLimit, (s.properties i).used = false

def Draws (s : Server) (gc drawable : UInt32) : Prop :=
  ∃ i, s.findGc gc = some i ∧ s.drawsWith i drawable = true

/-- `PutImage` is well formed. -/
structure Puts (s : Server) (id : UInt32) : Prop where
  draws : s.Draws (s.field32 8) id
  format : s.payload 1 = 2 ∧ s.payload 20 = 0 ∧ s.payload 21 = 32
  size : s.field16 12 ≠ 0 ∧ s.field16 14 ≠ 0
  fits : (s.field16 12).toNat * (s.field16 14).toNat ≤ (messageBytes - 24) / 4
  length : s.incoming.payloadLength.toNat - 24 = (s.field16 12).toNat * (s.field16 14).toNat * 4

/-- `CopyArea` is well formed. -/
structure Copies (s : Server) (source : UInt32) : Prop where
  source : s.validDrawable source = true
  destination : s.validDrawable (s.field32 8) = true
  draws : s.Draws (s.field32 12) (s.field32 8)

/-- `GetImage` is well formed. -/
structure Gets (s : Server) : Prop where
  format : s.payload 1 = 2
  size : (s.field16 12).toNat ≠ 0 ∧ (s.field16 14).toNat ≠ 0
  fits : (s.field16 12).toNat * (s.field16 14).toNat ≤ 56
  inside : 0 ≤ int16 (s.field16 8) ∧ 0 ≤ int16 (s.field16 10)

structure Texts (s : Server) (id : UInt32) (start : ℕ) : Prop where
  draws : s.Draws (s.field32 8) id
  length : s.incoming.payloadLength.toNat = padded (start + (s.payload 16).toNat)

/-- The request for `id` is good in itself, and writes a table before it can fail: a property's, or
the record of a window that has no surface yet. -/
inductive Overreaches (s : Server) (id : UInt32) : Prop
  | property (hop : s.payload 0 = Opcode.changeProperty)
      (hlength : 24 ≤ s.incoming.payloadLength.toNat) (h : s.AddsToNothing id)
  | fill (hop : s.payload 0 = Opcode.polyFillRectangle)
      (hlength : 20 ≤ s.incoming.payloadLength.toNat
        ∧ (s.incoming.payloadLength.toNat - 12) % 8 = 0)
      (h : s.Draws (s.field32 8) id) (hbare : s.Bare id)
  | put (hop : s.payload 0 = Opcode.putImage) (hlength : 28 ≤ s.incoming.payloadLength.toNat)
      (h : s.Puts id) (hbare : s.BareDrawable id)
  | copy (hop : s.payload 0 = Opcode.copyArea) (hlength : s.incoming.payloadLength.toNat = 28)
      (h : s.Copies id)
      (hbare : s.BareDrawable id ∨ (s.HasSurface id ∧ s.BareDrawable (s.field32 8)))
  | get (hop : s.payload 0 = Opcode.getImage) (hlength : s.incoming.payloadLength.toNat = 20)
      (h : s.Gets) (hbare : s.BareDrawable id)
  | text (hop : s.payload 0 = Opcode.polyText8) (hlength : 20 ≤ s.incoming.payloadLength.toNat)
      (h : s.Texts id 17) (hbare : s.BareDrawable id)
  | scaled (hop : s.payload 0 = Opcode.polyText8Scaled)
      (hlength : 21 ≤ s.incoming.payloadLength.toNat) (h : s.Texts id 18)
      (hscale : s.payload 17 ≠ 0 ∧ s.payload 17 ≤ 8) (hbare : s.BareDrawable id)
  | clear (hop : s.payload 0 = Opcode.clearArea) (hlength : s.incoming.payloadLength.toNat = 16)
      (hbare : s.Bare id)

/-- The tables are not what they were; where there is nothing to send, nothing has been composed. -/
structure Spoilt (s : Server) (r : Bool × Server) : Prop where
  changed : ¬SameTables s r.2
  silent : r.1 = false → r.2.outgoing = s.outgoing

variable {s : Server} {id : UInt32} {sys : Answers}

/-! ## Windows and properties -/

theorem createWindow_verdict (hask : s.Admitted) (hop : s.payload 0 = Opcode.createWindow)
    (h : ¬s.Sizeless) : Verdict s (s.createWindow (s.field32 4)) := by
  unfold createWindow
  by_cases hbad : s.incoming.payloadLength ≠ 32 ∨ s.field32 8 ≠ rootWindow
  · rw [if_pos hbad]
    exact refused s hop
  rw [if_neg hbad]
  simp only [not_or, not_not] at hbad
  rcases halloc : s.allocateWindow (s.field32 4) s.incoming.clientId with _ | ⟨i, t⟩
  · exact refused s hop
  unfold allocateWindow at halloc
  split_ifs at halloc with hid
  obtain ⟨j, hj, heq⟩ := Option.map_eq_some_iff.1 halloc
  obtain ⟨rfl, rfl⟩ := Prod.mk.inj heq
  obtain ⟨hlt, hfree, -⟩ := Table.firstIndex_eq_some.1 hj
  have hfree : (s.window j).used = 0 := of_decide_eq_true hfree
  dsimp only
  split_ifs with hmask hsize
  · exact refuse_verdict hop (setWindow_untouched hfree rfl)
  · rw [Bool.or_eq_true, not_or, Bool.not_eq_true', Bool.not_eq_false,
      Option.not_isSome_iff_eq_none] at hid
    exact absurd ⟨hask, hop, hbad.1, hbad.2, hid.1, hid.2, ⟨j, hlt, hfree⟩, not_not.1 hmask,
      hsize⟩ h
  · exact .silent rfl

theorem createWindow_unsent (h : s.Sizeless) : (s.createWindow (s.field32 4)).1 = false := by
  have hid : ¬(!ownsId (s.field32 4) s.incoming.clientId
      || (s.findWindow (s.field32 4)).isSome) = true := by
    rw [h.owned, h.fresh]
    decide
  unfold createWindow
  rw [if_neg (by simp [h.length, h.parent])]
  rcases halloc : s.allocateWindow (s.field32 4) s.incoming.clientId with _ | ⟨i, t⟩
  · obtain ⟨i, hi, hfree⟩ := h.room
    unfold allocateWindow at halloc
    rw [if_neg hid, Option.map_eq_none_iff, Table.firstIndex_eq_none] at halloc
    exact absurd (halloc i hi) (by simp [hfree])
  unfold allocateWindow at halloc
  rw [if_neg hid] at halloc
  obtain ⟨j, -, heq⟩ := Option.map_eq_some_iff.1 halloc
  obtain ⟨rfl, rfl⟩ := Prod.mk.inj heq
  dsimp only
  split_ifs with hmask hsize
  · exact absurd h.mask hmask
  · rfl
  · exact absurd h.size hsize

theorem changeProperty_verdict (hop : s.payload 0 = Opcode.changeProperty)
    (h : ¬s.AddsToNothing id) : Verdict s (s.changeProperty id) := by
  unfold changeProperty
  dsimp only
  split
  · exact refused s hop
  rename_i hgood
  unfold propertySlot
  rcases hfind : s.findProperty id (s.field32 8) with _ | i
  · rcases hfree : Table.firstIndex propertyLimit fun i => !(s.properties i).used with _ | i
    · exact refused s hop
    dsimp only [Option.map_some]
    split
    · rename_i hmode
      obtain ⟨hlt, hused, -⟩ := Table.firstIndex_eq_some.1 hfree
      simp only [not_or, not_not, Bool.not_eq_true', Bool.not_eq_false, not_lt, UInt8.not_lt]
        at hgood hused
      exact absurd ⟨hgood.1, hgood.2.1, hgood.2.2.1, hgood.2.2.2.1, hgood.2.2.2.2.1,
        hgood.2.2.2.2.2.1, ⟨hmode.1, hgood.2.2.2.2.2.2⟩, hfind, i, hlt, hused⟩ h
    · refine propertyNotify_verdict ?_ _ _ _
      rfl
  · dsimp only
    split
    · exact refused s hop
    · refine propertyNotify_verdict ?_ _ _ _
      rfl

theorem changeProperty_spoilt (h : s.AddsToNothing id) : Spoilt s (s.changeProperty id) := by
  unfold changeProperty
  rw [if_neg (by simp only [h.window, h.atom, h.type, h.format, Nat.not_lt.2 h.fits, h.length,
    UInt8.not_lt.2 h.mode.2, Bool.not_true, Bool.false_eq_true, ne_eq, not_true_eq_false, or_self,
    not_false_eq_true])]
  unfold propertySlot
  rw [h.missing]
  rcases hfree : Table.firstIndex propertyLimit fun i => !(s.properties i).used with _ | i
  · obtain ⟨i, hi, hunused⟩ := h.room
    exact absurd (Table.firstIndex_eq_none.1 hfree i hi) (by simp [hunused])
  dsimp only [Option.map_some]
  have hslot : (s.setProperty i { window := id, atom := s.field32 8, used := true }).properties i
      = { window := id, atom := s.field32 8, used := true } := Function.update_self _ _ _
  rw [if_pos ⟨h.mode.1, .inl (by rw [hslot]; exact h.type.symm)⟩]
  refine ⟨fun hsame => ?_, nofun⟩
  -- the slot is taken, and was free
  have hkept : (s.setProperty i { window := id, atom := s.field32 8, used := true }).properties i
      = s.properties i := congrFun (congrArg Rest.properties hsame.rest) i
  have hunused := (Table.firstIndex_eq_some.1 hfree).2.1
  rw [← hslot.symm.trans hkept] at hunused
  cases hunused

/-! ## Surfaces that are made -/

def Surfaced (s t : Server) : Prop := ∃ i < windowLimit, (s.window i).used ≠ 0
  ∧ (s.window i).surfaceHandle = 0 ∧ (t.window i).surfaceHandle ≠ 0

theorem Surfaced.changed {t : Server} (h : Surfaced s t) : ¬SameTables s t := by
  obtain ⟨i, hi, hused, hbare, hsurface⟩ := h
  intro hsame
  have hwindow := hsame.windows i hi
  rw [heldWindow, heldWindow, if_pos hused] at hwindow
  split_ifs at hwindow
  rw [Option.some.inj hwindow] at hsurface
  exact hsurface hbare

theorem Surfaced.leaves {t u : Server} (h : Surfaced s t) (htu : Leaves t u) : Surfaced s u := by
  obtain ⟨i, hi, hused, hbare, hsurface⟩ := h
  exact ⟨i, hi, hused, hbare, by rwa [htu.window]⟩

theorem Bare.surfaced (hsys : Distinct sys) {i : ℕ} (hi : s.findWindow id = some i)
    (hbare : s.Bare id) : Surfaced s (s.createWindowSurface sys i).2 := by
  obtain ⟨j, hj, hsurface⟩ := hbare
  obtain rfl : i = j := Option.some.inj (hi.symm.trans hj)
  obtain ⟨hlt, hused, -⟩ := findWindow_some hi
  exact ⟨i, hlt, hused, hsurface, createWindowSurface_surfaced sys hsys s i⟩

theorem Bare.of_zero {i : ℕ} (hi : s.findWindow id = some i) (h : ¬s.Bare id) :
    (s.window i).surfaceHandle ≠ 0 := fun hsurface => h ⟨i, hi, hsurface⟩

theorem drawableSurface_ready (h : ¬s.BareDrawable id) : (s.drawableSurface sys id).2 = s := by
  unfold drawableSurface
  rcases hp : s.findPixmap id with _ | p
  · rcases hw : s.findWindow id with _ | i
    · rfl
    · have hsurface := Bare.of_zero hw fun hbare => h ⟨hp, hbare⟩
      dsimp only
      rw [createWindowSurface_ready sys hsurface]
      split_ifs <;> rfl
  · rfl

variable (sys) in
theorem drawableSurface_bare (h : s.BareDrawable id) :
    ∃ i, s.findWindow id = some i ∧ (s.drawableSurface sys id).2 = (s.createWindowSurface sys i).2 := by
  obtain ⟨hp, i, hi, -⟩ := h
  refine ⟨i, hi, ?_⟩
  unfold drawableSurface
  rw [hp, hi]
  dsimp only
  split_ifs <;> rfl

theorem drawableSurface_surfaced (hsys : Distinct sys) (h : s.BareDrawable id) :
    Surfaced s (s.drawableSurface sys id).2 := by
  obtain ⟨i, hi, heq⟩ := drawableSurface_bare sys h
  rw [heq]
  exact h.2.surfaced hsys hi

theorem Surfaced.kept {t : Server} (h : Surfaced s t) (id : UInt32) :
    Surfaced s (t.drawableSurface sys id).2 := by
  obtain ⟨i, hi, hused, hbare, hsurface⟩ := h
  refine ⟨i, hi, hused, hbare, ?_⟩
  by_cases hid : t.BareDrawable id
  · obtain ⟨j, -, heq⟩ := drawableSurface_bare sys hid
    rw [heq]
    exact createWindowSurface_keeps sys t j hsurface
  · rwa [drawableSurface_ready hid]

theorem drawableSurface_outgoing (s : Server) (id : UInt32) :
    (s.drawableSurface sys id).2.outgoing = s.outgoing := by
  by_cases h : s.BareDrawable id
  · obtain ⟨i, -, heq⟩ := drawableSurface_bare sys h
    rw [heq, createWindowSurface_outgoing]
  · rw [drawableSurface_ready h]

theorem drawableSurface_some (h : s.HasSurface id) : (s.drawableSurface sys id).1 ≠ none := by
  unfold drawableSurface
  rcases hp : s.findPixmap id with _ | p
  · obtain hpixmap | ⟨i, hi, hsurface, hkernel⟩ := h
    · simp [hp] at hpixmap
    · rw [hi]
      dsimp only
      rw [createWindowSurface_ready sys hsurface, if_neg (by simp [hkernel])]
      exact Option.some_ne_none _
  · exact Option.some_ne_none _

theorem HasSurface.not_bare (h : s.HasSurface id) : ¬s.BareDrawable id := by
  rintro ⟨hnone, i, hi, hbare⟩
  rcases h with hpixmap | ⟨j, hj, hsurface, -⟩
  · simp [hnone] at hpixmap
  · obtain rfl : i = j := Option.some.inj (hi.symm.trans hj)
    exact hsurface hbare

theorem hasSurface_of_some (hready : ¬s.BareDrawable id)
    (h : (s.drawableSurface sys id).1 ≠ none) : s.HasSurface id := by
  unfold drawableSurface at h
  rcases hp : s.findPixmap id with _ | p
  · rcases hi : s.findWindow id with _ | i
    · rw [hp, hi] at h
      exact absurd rfl h
    · have hsurface := Bare.of_zero hi fun hbare => hready ⟨hp, hbare⟩
      rw [hp, hi] at h
      dsimp only at h
      rw [createWindowSurface_ready sys hsurface] at h
      refine .inr ⟨i, hi, hsurface, fun hfallback => h ?_⟩
      rw [if_pos (.inr hfallback)]
  · exact .inl (by rw [hp]; rfl)

/-! ## Drawing -/

theorem drawn_verdict {opcode : UInt8} (hop : s.payload 0 = opcode) {t : Server} (h : Leaves s t)
    (result : ℤ) (code : UInt8) (badValue : UInt32) :
    Verdict s (if result < 0 then t.refuse code opcode badValue else (false, t)) := by
  split_ifs
  · exact refuse_verdict hop h.untouched
  · exact .silent h.outgoing

theorem drawn_spoilt {t : Server} (h : Surfaced s t) (houtgoing : t.outgoing = s.outgoing)
    (result : ℤ) (code opcode : UInt8) (badValue : UInt32) :
    Spoilt s (if result < 0 then t.refuse code opcode badValue else (false, t)) := by
  split_ifs
  · exact ⟨Surfaced.changed h, nofun⟩
  · exact ⟨h.changed, fun _ => houtgoing⟩

theorem fillRectangles_keeps {I : Server → Prop}
    {fill : UInt16 → UInt16 → UInt16 → UInt16 → Server → ℤ × Server}
    (hfill : ∀ x y width height t, I t → I (fill x y width height t).2) :
    ∀ (l : List ℕ) (t : Server), I t → I (fillRectangles sys fill l t).2
  | [], _, h => h
  | index :: l, t, h => by
    have hfirst := hfill (t.field16 (12 + index * 8)) (t.field16 (12 + index * 8 + 2))
      (t.field16 (12 + index * 8 + 4)) (t.field16 (12 + index * 8 + 6)) t h
    unfold fillRectangles
    dsimp only
    split_ifs
    · exact hfirst
    · exact fillRectangles_keeps hfill l _ hfirst

theorem fillRectangles_first {I : Server → Prop}
    {fill : UInt16 → UInt16 → UInt16 → UInt16 → Server → ℤ × Server}
    (hfill : ∀ x y width height t, I (fill x y width height t).2) {l : List ℕ} (hl : l ≠ [])
    (t : Server) : I (fillRectangles sys fill l t).2 := by
  rcases l with _ | ⟨index, l⟩
  · exact absurd rfl hl
  unfold fillRectangles
  dsimp only
  split_ifs
  · exact hfill _ _ _ _ t
  · exact fillRectangles_keeps (fun x y width height t _ => hfill x y width height t) l _
      (hfill _ _ _ _ t)

theorem fillRectangle_outgoing (t : Server) (i : ℕ) (foreground : UInt32)
    (x y width height : UInt16) :
    (t.fillRectangle sys i foreground x y width height).2.outgoing = t.outgoing :=
  (fillRectangle_leaves sys t i foreground x y width height).outgoing.trans
    (createWindowSurface_outgoing sys t i)

theorem polyFillRectangle_verdict (hop : s.payload 0 = Opcode.polyFillRectangle)
    (h : s.Draws (s.field32 8) id → ¬s.Bare id) : Verdict s (s.polyFillRectangle sys id) := by
  unfold polyFillRectangle
  rcases hgc : s.findGc (s.field32 8) with _ | gc
  · exact refused s hop
  dsimp only
  split
  · exact refused s hop
  rename_i hdraws
  rcases hi : s.findWindow id with _ | i
  · rcases s.findPixmap id with _ | p
    · exact refused s hop
    · refine drawn_verdict hop ?_ _ _ _
      exact fillRectangles_keeps (I := Leaves s)
        (fun x y width height t ht => ht.trans (fillPixmap_leaves sys t p _ x y width height)) _ s
        (.refl s)
  · have hsurface := Bare.of_zero hi (h ⟨gc, hgc, by simpa using hdraws⟩)
    refine drawn_verdict hop ?_ _ _ _
    refine fillRectangles_keeps (I := Leaves s) (fun x y width height t ht => ?_) _ s (.refl s)
    have hfill := fillRectangle_leaves sys t i (s.gcs gc).foreground x y width height
    rw [createWindowSurface_ready sys (by rwa [ht.window])] at hfill
    exact ht.trans hfill

theorem polyFillRectangle_spoilt (hsys : Distinct sys)
    (hlength : 20 ≤ s.incoming.payloadLength.toNat) (h : s.Draws (s.field32 8) id)
    (hbare : s.Bare id) : Spoilt s (s.polyFillRectangle sys id) := by
  obtain ⟨gc, hgc, hdraws⟩ := h
  obtain ⟨i, hi, hsurface⟩ := hbare
  obtain ⟨hlt, hused, -⟩ := findWindow_some hi
  have hcount : List.range ((s.incoming.payloadLength.toNat - 12) / 8) ≠ [] := by
    rw [ne_eq, List.range_eq_nil]
    omega
  unfold polyFillRectangle
  rw [hgc, hi]
  dsimp only
  rw [if_neg (by simp [hdraws])]
  refine drawn_spoilt ?_ ?_ _ _ _ _
  · refine ⟨i, hlt, hused, hsurface, ?_⟩
    refine fillRectangles_first (I := fun t => (t.window i).surfaceHandle ≠ 0)
      (fun x y width height t => ?_) hcount s
    rw [(fillRectangle_leaves sys t i _ x y width height).window]
    exact createWindowSurface_surfaced sys hsys t i
  · exact fillRectangles_keeps (I := fun t => t.outgoing = s.outgoing)
      (fun x y width height t ht => (fillRectangle_outgoing t i _ x y width height).trans ht) _ s rfl

theorem Bare.valid (h : s.Bare id) : s.validDrawable id = true := by
  obtain ⟨i, hi, -⟩ := h
  rw [validDrawable, hi]
  rfl

theorem putImageRequest_verdict (hop : s.payload 0 = Opcode.putImage)
    (h : s.Puts id → ¬s.BareDrawable id) : Verdict s (s.putImageRequest sys id) := by
  unfold putImageRequest
  rcases hgc : s.findGc (s.field32 8) with _ | gc
  · exact refused s hop
  dsimp only
  split
  · exact refused s hop
  rename_i hgood
  simp only [not_or, not_not, Bool.not_eq_true', Bool.not_eq_false, not_lt] at hgood
  obtain ⟨hpixmap, hx, hbits, hwidth, hheight, hfits, hlength, hdraws, hvalid⟩ := hgood
  have hput := putImage_leaves sys s id (s.field16 16) (s.field16 18) (s.field16 12) (s.field16 14)
    (fun k => s.payload (24 + k)) hvalid
  rw [drawableSurface_ready (h ⟨⟨gc, hgc, hdraws⟩, ⟨hpixmap, hx, hbits⟩, ⟨hwidth, hheight⟩, hfits,
    hlength⟩)] at hput
  exact drawn_verdict hop hput _ _ _

theorem putImageRequest_spoilt (hsys : Distinct sys) (h : s.Puts id)
    (hbare : s.BareDrawable id) : Spoilt s (s.putImageRequest sys id) := by
  obtain ⟨gc, hgc, hdraws⟩ := h.draws
  have hput := putImage_leaves sys s id (s.field16 16) (s.field16 18) (s.field16 12) (s.field16 14)
    (fun k => s.payload (24 + k)) hbare.2.valid
  unfold putImageRequest
  rw [hgc]
  dsimp only
  rw [if_neg (by simp [h.format, h.size, h.fits, h.length, hdraws, hbare.2.valid])]
  exact drawn_spoilt ((drawableSurface_surfaced hsys hbare).leaves hput)
    (hput.outgoing.trans (drawableSurface_outgoing s id)) _ _ _ _

theorem copyAreaRequest_verdict (hop : s.payload 0 = Opcode.copyArea)
    (h : s.Copies id → ¬(s.BareDrawable id ∨ (s.HasSurface id ∧ s.BareDrawable (s.field32 8)))) :
    Verdict s (s.copyAreaRequest sys id) := by
  unfold copyAreaRequest
  dsimp only
  split
  · exact refused s hop
  rename_i hsource
  split
  · exact refused s hop
  rename_i hdestination
  split
  · exact refused s hop
  rename_i hgc
  have hdraws : s.Draws (s.field32 12) (s.field32 8) := by
    rcases hfind : s.findGc (s.field32 12) with _ | gc
    · simp [hfind] at hgc
    · exact ⟨gc, hfind, by simpa [hfind] using hgc⟩
  have hbare := h ⟨by simpa using hsource, by simpa using hdestination, hdraws⟩
  rw [not_or, not_and] at hbare
  have hcopy := copyArea_leaves sys s id (s.field32 8) (s.field16 16) (s.field16 18)
    (s.field16 20) (s.field16 22) (s.field16 24) (s.field16 26)
  have hready : (s.drawableSurface sys id).2 = s := drawableSurface_ready hbare.1
  rw [hready] at hcopy
  refine drawn_verdict hop ?_ _ _ _
  split_ifs at hcopy with hnone
  · exact hcopy
  · rwa [drawableSurface_ready (hbare.2 (hasSurface_of_some hbare.1 hnone))] at hcopy

theorem copyAreaRequest_spoilt (hsys : Distinct sys) (h : s.Copies id)
    (hbare : s.BareDrawable id ∨ (s.HasSurface id ∧ s.BareDrawable (s.field32 8))) :
    Spoilt s (s.copyAreaRequest sys id) := by
  obtain ⟨gc, hgc, hdraws⟩ := h.draws
  have hcopy := copyArea_leaves sys s id (s.field32 8) (s.field16 16) (s.field16 18)
    (s.field16 20) (s.field16 22) (s.field16 24) (s.field16 26)
  unfold copyAreaRequest
  rw [if_neg (by simp [h.source]), if_neg (by simp [h.destination]), if_neg (by simp [hgc, hdraws])]
  have houtgoing : (if (s.drawableSurface sys id).1 = none then (s.drawableSurface sys id).2
      else ((s.drawableSurface sys id).2.drawableSurface sys (s.field32 8)).2).outgoing
        = s.outgoing := by
    split_ifs
    · exact drawableSurface_outgoing s id
    · rw [drawableSurface_outgoing, drawableSurface_outgoing]
  refine drawn_spoilt (Surfaced.leaves ?_ hcopy) (hcopy.outgoing.trans houtgoing) _ _ _ _
  rcases hbare with hbare | ⟨hsurface, hbare⟩
  · have hmade := drawableSurface_surfaced hsys hbare
    split_ifs
    · exact hmade
    · exact hmade.kept _
  · rw [if_neg (drawableSurface_some hsurface), drawableSurface_ready hsurface.not_bare]
    exact drawableSurface_surfaced hsys hbare

theorem Gets.of_checks (h : ¬(s.payload 1 ≠ 2 ∨ (s.field16 12).toNat = 0 ∨ (s.field16 14).toNat = 0
    ∨ 56 < (s.field16 12).toNat * (s.field16 14).toNat ∨ int16 (s.field16 8) < 0
    ∨ int16 (s.field16 10) < 0)) : s.Gets := by
  simp only [not_or, not_not, not_lt] at h
  exact ⟨h.1, ⟨h.2.1, h.2.2.1⟩, h.2.2.2.1, h.2.2.2.2⟩

theorem Gets.checks (h : s.Gets) : ¬(s.payload 1 ≠ 2 ∨ (s.field16 12).toNat = 0
    ∨ (s.field16 14).toNat = 0 ∨ 56 < (s.field16 12).toNat * (s.field16 14).toNat
    ∨ int16 (s.field16 8) < 0 ∨ int16 (s.field16 10) < 0) := by
  simp only [not_or, not_not, not_lt]
  exact ⟨h.format, h.size.1, h.size.2, h.fits, h.inside⟩

variable (sys id) in
/-- What `GetImage` comes to, once it is well formed: a refusal that leaves alone what the surface has
left, or the pixels. -/
theorem getImage_cases (h : s.Gets) :
    (∃ t code, Leaves (s.drawableSurface sys id).2 t
        ∧ s.getImage sys id = t.refuse code Opcode.getImage id)
      ∨ ∃ t length payload, Leaves (s.drawableSurface sys id).2 t
        ∧ s.getImage sys id = (true, t.reply length payload) := by
  unfold getImage
  dsimp only
  rw [if_neg h.checks]
  rcases s.drawableSurface sys id with ⟨_ | d, t⟩
  · exact .inl ⟨t, _, .refl t, rfl⟩
  dsimp only
  have hmap := call_leaves sys t (c := .surfaceMap d.surface) rfl
  split_ifs
  · exact .inl ⟨t, _, .refl t, rfl⟩
  · exact .inl ⟨_, _, hmap, rfl⟩
  · exact .inr ⟨_, _, _, hmap.trans ((readPixels_leaves sys d.surface _ _).trans
      (call'_leaves sys _ (c := .surfaceUnmap d.surface) rfl)), rfl⟩

theorem getImage_verdict (hop : s.payload 0 = Opcode.getImage) (h : s.Gets → ¬s.BareDrawable id) :
    Verdict s (s.getImage sys id) := by
  by_cases hgets : s.Gets
  · have hready : (s.drawableSurface sys id).2 = s := drawableSurface_ready (h hgets)
    obtain ⟨t, code, ht, heq⟩ | ⟨t, length, payload, -, heq⟩ :=
      getImage_cases id sys hgets
    · rw [heq]
      rw [hready] at ht
      exact refuse_verdict hop ht.untouched
    · rw [heq]
      exact reply_told t _ _
  · unfold getImage
    rw [if_pos (not_not.1 fun hchecks => hgets (.of_checks hchecks))]
    exact refused s hop

theorem getImage_spoilt (hsys : Distinct sys) (h : s.Gets) (hbare : s.BareDrawable id) :
    Spoilt s (s.getImage sys id) := by
  have hmade := drawableSurface_surfaced hsys hbare
  obtain ⟨t, code, ht, heq⟩ | ⟨t, length, payload, ht, heq⟩ :=
    getImage_cases id sys h
  all_goals
    have hst := hmade.leaves ht
    rw [heq]
    exact ⟨Surfaced.changed hst, nofun⟩

theorem polyText_verdict {opcode : UInt8} (hop : s.payload 0 = opcode) {start : ℕ}
    {draw : UInt32 → UInt16 → UInt16 → (ℕ → UInt8) → UInt8 → ℤ × Server}
    (hdraw : s.Texts id start → ∀ foreground x y text length,
      Leaves s (draw foreground x y text length).2) :
    Verdict s (s.polyText opcode id start draw) := by
  unfold polyText
  rcases hgc : s.findGc (s.field32 8) with _ | gc
  · exact refused s hop
  dsimp only
  split
  · exact refused s hop
  rename_i hgood
  simp only [not_or, not_not, Bool.not_eq_true', Bool.not_eq_false] at hgood
  exact drawn_verdict hop (hdraw ⟨⟨gc, hgc, hgood.2.1⟩, hgood.1⟩ _ _ _ _ _) _ _ _

theorem polyText_spoilt {opcode : UInt8} {start : ℕ}
    {draw : UInt32 → UInt16 → UInt16 → (ℕ → UInt8) → UInt8 → ℤ × Server} (h : s.Texts id start)
    (hvalid : s.validDrawable id = true)
    (hdraw : ∀ foreground x y text length, Surfaced s (draw foreground x y text length).2
      ∧ (draw foreground x y text length).2.outgoing = s.outgoing) :
    Spoilt s (s.polyText opcode id start draw) := by
  obtain ⟨gc, hgc, hdraws⟩ := h.draws
  unfold polyText
  rw [hgc]
  dsimp only
  rw [if_neg (by simp [h.length, hdraws, hvalid])]
  exact drawn_spoilt (hdraw _ _ _ _ _).1 (hdraw _ _ _ _ _).2 _ _ _ _

theorem drawGlyphs_ready (h : ¬s.BareDrawable id) (foreground : UInt32) (x baseline : UInt16)
    (text : ℕ → UInt8) (length scale : ℕ) (buffered : Bool) :
    Leaves s (s.drawGlyphs sys id foreground x baseline text length scale buffered).2 := by
  have hdraw := drawGlyphs_leaves sys s id foreground x baseline text length scale buffered
  rwa [drawableSurface_ready h] at hdraw

theorem drawGlyphs_bare (hsys : Distinct sys) (h : s.BareDrawable id) (foreground : UInt32)
    (x baseline : UInt16) (text : ℕ → UInt8) (length scale : ℕ) (buffered : Bool) :
    Surfaced s (s.drawGlyphs sys id foreground x baseline text length scale buffered).2
      ∧ (s.drawGlyphs sys id foreground x baseline text length scale buffered).2.outgoing
        = s.outgoing := by
  have hdraw := drawGlyphs_leaves sys s id foreground x baseline text length scale buffered
  exact ⟨(drawableSurface_surfaced hsys h).leaves hdraw,
    hdraw.outgoing.trans (drawableSurface_outgoing s id)⟩

theorem polyText8_verdict (hop : s.payload 0 = Opcode.polyText8)
    (h : s.Texts id 17 → ¬s.BareDrawable id) : Verdict s (s.polyText8 sys id) :=
  polyText_verdict hop fun htexts _ _ _ _ _ => drawGlyphs_ready (h htexts) _ _ _ _ _ _ _

theorem polyText8_spoilt (hsys : Distinct sys) (h : s.Texts id 17) (hbare : s.BareDrawable id) :
    Spoilt s (s.polyText8 sys id) :=
  polyText_spoilt h hbare.2.valid fun _ _ _ _ _ => drawGlyphs_bare hsys hbare _ _ _ _ _ _ _

theorem polyText8Scaled_verdict (hop : s.payload 0 = Opcode.polyText8Scaled)
    (h : s.Texts id 18 → (s.payload 17 ≠ 0 ∧ s.payload 17 ≤ 8) → ¬s.BareDrawable id) :
    Verdict s (s.polyText8Scaled sys id) := by
  refine polyText_verdict hop fun htexts _ _ _ _ _ => ?_
  unfold drawTextScaled
  split_ifs with hscale
  · exact .refl s
  · rw [not_or, UInt8.not_lt] at hscale
    exact drawGlyphs_ready (h htexts hscale) _ _ _ _ _ _ _

theorem polyText8Scaled_spoilt (hsys : Distinct sys) (h : s.Texts id 18)
    (hscale : s.payload 17 ≠ 0 ∧ s.payload 17 ≤ 8) (hbare : s.BareDrawable id) :
    Spoilt s (s.polyText8Scaled sys id) := by
  refine polyText_spoilt h hbare.2.valid fun _ _ _ _ _ => ?_
  unfold drawTextScaled
  rw [if_neg (not_or.2 ⟨hscale.1, UInt8.not_lt.2 hscale.2⟩)]
  exact drawGlyphs_bare hsys hbare _ _ _ _ _ _ _

theorem clearArea_verdict (hop : s.payload 0 = Opcode.clearArea) {i : ℕ}
    (hi : s.findWindow id = some i) (h : ¬s.Bare id) : Verdict s (s.clearArea sys i id) := by
  have hclear := clearBackground_leaves sys s i (s.field16 8) (s.field16 10) (s.field16 12)
    (s.field16 14)
  rw [createWindowSurface_ready sys (Bare.of_zero hi h)] at hclear
  exact drawn_verdict hop hclear _ _ _

theorem clearArea_spoilt (hsys : Distinct sys) {i : ℕ} (hi : s.findWindow id = some i)
    (hbare : s.Bare id) : Spoilt s (s.clearArea sys i id) := by
  have hclear := clearBackground_leaves sys s i (s.field16 8) (s.field16 10) (s.field16 12)
    (s.field16 14)
  exact drawn_spoilt ((hbare.surfaced hsys hi).leaves hclear)
    (hclear.outgoing.trans (createWindowSurface_outgoing sys s i)) _ _ _ _

end Server

end DemonX

end DemonOS
