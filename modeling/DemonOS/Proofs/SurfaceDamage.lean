import DemonOS.Proofs.SurfaceArena

/-!
# The damage of surfaces

Beside the surfaces a run keeps, for every object, the rectangles that were reported since its
damage was last read. A report overwrites the one that is pending, so a read returns the latest
report (`Noted`), and it covers all of them just when that one does (`damage_covered_iff`).
-/

namespace DemonOS

open Surfaces

structure DamageRect where
  x : ℕ
  y : ℕ
  width : ℕ
  height : ℕ
  deriving DecidableEq

/-- The rectangle lies in the other one. -/
structure DamageRect.Within (r r' : DamageRect) : Prop where
  left : r'.x ≤ r.x
  top : r'.y ≤ r.y
  right : r.x + r.width ≤ r'.x + r'.width
  bottom : r.y + r.height ≤ r'.y + r'.height

def SurfaceObject.bounds (o : SurfaceObject) : DamageRect := ⟨0, 0, o.width, o.height⟩

/-- The rectangle whose four fields of 16 bits these are. -/
def unpackDamage (packed : ℕ) : DamageRect :=
  ⟨packed % 2 ^ 16, packed / 2 ^ 16 % 2 ^ 16, packed / 2 ^ 32 % 2 ^ 16, packed / 2 ^ 48 % 2 ^ 16⟩

inductive DamageOp where
  | damage (id x y width height : ℕ)
  | take (id : ℕ)
  | other (op : SurfaceOp)

/-- The rectangles reported for each object since its damage was read, the latest first. -/
abbrev Reported : Type := ℕ → List DamageRect

def damageStep (t : Surfaces × Reported) : DamageOp → Surfaces × Reported
  | .damage id x y width height =>
    match t.1.surfaceDamage id x y width height with
    | none => t
    | some s => (s, Function.update t.2 (id - 1) (⟨x, y, width, height⟩ :: t.2 (id - 1)))
  | .take id =>
    match t.1.surfaceTakeDamage id with
    | none => t
    | some (_, s) => (s, Function.update t.2 (id - 1) [])
  | .other op => (surfaceStep t.1 op, fun i =>
      if (t.1.objects i).active ∧ ((surfaceStep t.1 op).objects i).active then t.2 i else [])

def TakesAll (t : Surfaces × Reported) (op : DamageOp) : Prop :=
  ∀ id packed s, op = .take id → t.1.surfaceTakeDamage id = some (packed, s) →
    (unpackDamage packed).Within (t.1.objects (id - 1)).bounds
      ∧ ∀ r ∈ t.2 (id - 1), r.Within (unpackDamage packed)

def LatestCovers (t : Surfaces × Reported) (op : DamageOp) : Prop :=
  ∀ id i latest earlier, op = .take id → t.1.resolve id = some i → t.2 i = latest :: earlier →
    ∀ r ∈ earlier, r.Within latest

structure SurfaceObject.Notes (o : SurfaceObject) (reported : List DamageRect) : Prop where
  pending : o.damagePending = true ↔ reported ≠ []
  latest : ∀ r earlier, reported = r :: earlier →
    r = ⟨o.damageX, o.damageY, o.damageWidth, o.damageHeight⟩ ∧ r.Within o.bounds
      ∧ r.x < 2 ^ 16 ∧ r.y < 2 ^ 16 ∧ r.width < 2 ^ 16 ∧ r.height < 2 ^ 16

def Noted (t : Surfaces × Reported) : Prop :=
  ∀ i, (t.1.objects i).active = true → (t.1.objects i).Notes (t.2 i)

/-! ## The packed rectangle -/

theorem unpackDamage_pack {x y width height : ℕ} (hx : x < 2 ^ 16) (hy : y < 2 ^ 16)
    (hw : width < 2 ^ 16) (hh : height < 2 ^ 16) :
    unpackDamage (x ||| y <<< 16 ||| width <<< 32 ||| height <<< 48) = ⟨x, y, width, height⟩ := by
  have hpack : x ||| y <<< 16 ||| width <<< 32 ||| height <<< 48
      = height * 2 ^ 48 + (width * 2 ^ 32 + (y * 2 ^ 16 + x)) := by
    rw [Nat.or_comm x, ← Nat.shiftLeft_add_eq_or_of_lt hx, Nat.or_comm (_ + x),
      ← Nat.shiftLeft_add_eq_or_of_lt (by rw [Nat.shiftLeft_eq]; omega),
      Nat.or_comm (width <<< 32 + _),
      ← Nat.shiftLeft_add_eq_or_of_lt (by rw [Nat.shiftLeft_eq, Nat.shiftLeft_eq]; omega)]
    simp only [Nat.shiftLeft_eq]
  rw [hpack]
  unfold unpackDamage
  congr 1 <;> omega

theorem surfaceDamage_spec {s s' : Surfaces} {id x y width height : ℕ}
    (h : s.surfaceDamage id x y width height = some s') :
    ∃ i, id = i + 1 ∧ i < surfaceLimit ∧ (s.objects i).active = true
      ∧ (⟨x, y, width, height⟩ : DamageRect).Within (s.objects i).bounds
      ∧ x < 2 ^ 16 ∧ y < 2 ^ 16 ∧ width < 2 ^ 16 ∧ height < 2 ^ 16
      ∧ s' = s.setObject i { s.objects i with
          damageX := x, damageY := y, damageWidth := width, damageHeight := height
          damagePending := true } := by
  unfold surfaceDamage at h
  split at h
  · cases h
  · rename_i i hi
    obtain ⟨rfl, hlt, hact⟩ := resolve_eq_some.1 hi
    split_ifs at h with hbad
    simp only [not_or, not_lt, not_le] at hbad
    refine ⟨i, rfl, hlt, hact, ⟨Nat.zero_le _, Nat.zero_le _, ?_, ?_⟩, by omega, by omega, by omega,
      by omega, by simpa using h.symm⟩
    · simp only [SurfaceObject.bounds]
      omega
    · simp only [SurfaceObject.bounds]
      omega

theorem surfaceTakeDamage_spec {s s' : Surfaces} {id packed : ℕ}
    (h : s.surfaceTakeDamage id = some (packed, s')) :
    ∃ i, id = i + 1 ∧ i < surfaceLimit ∧ (s.objects i).active = true
      ∧ (s.objects i).damagePending = true
      ∧ packed = ((s.objects i).damageX ||| (s.objects i).damageY <<< 16
        ||| (s.objects i).damageWidth <<< 32 ||| (s.objects i).damageHeight <<< 48)
      ∧ s' = s.setObject i { s.objects i with damagePending := false } := by
  unfold surfaceTakeDamage at h
  split at h
  · cases h
  · rename_i i hi
    obtain ⟨rfl, hlt, hact⟩ := resolve_eq_some.1 hi
    split_ifs at h with hpending
    simp only [Option.some.injEq, Prod.mk.injEq] at h
    exact ⟨i, rfl, hlt, hact, by simpa using hpending, h.1.symm, h.2.symm⟩

/-! ## The invariant -/

def SurfaceObject.SameDamage (o o' : SurfaceObject) : Prop :=
  o'.damageX = o.damageX ∧ o'.damageY = o.damageY ∧ o'.damageWidth = o.damageWidth
    ∧ o'.damageHeight = o.damageHeight ∧ o'.damagePending = o.damagePending
    ∧ o'.width = o.width ∧ o'.height = o.height

theorem SurfaceObject.SameDamage.notes {o o' : SurfaceObject} {reported : List DamageRect}
    (h : o.SameDamage o') (ho : o.Notes reported) : o'.Notes reported := by
  obtain ⟨hx, hy, hw, hh, hp, hwidth, hheight⟩ := h
  refine ⟨by rw [hp]; exact ho.pending, fun r earlier hr => ?_⟩
  unfold SurfaceObject.bounds
  rw [hx, hy, hw, hh, hwidth, hheight]
  exact ho.latest r earlier hr

theorem surfaceStep_damage (s : Surfaces) (op : SurfaceOp) (i : ℕ)
    (hact : ((surfaceStep s op).objects i).active = true) :
    (s.objects i).active = true ∧ (s.objects i).SameDamage ((surfaceStep s op).objects i)
      ∨ (s.objects i).active = false ∧ ((surfaceStep s op).objects i).damagePending = false := by
  have hsame : (surfaceStep s op).objects i = s.objects i →
      (s.objects i).active = true ∧ (s.objects i).SameDamage ((surfaceStep s op).objects i)
        ∨ (s.objects i).active = false
          ∧ ((surfaceStep s op).objects i).damagePending = false := by
    intro heq
    rw [heq] at hact ⊢
    exact .inl ⟨hact, rfl, rfl, rfl, rfl, rfl, rfl, rfl⟩
  -- the object the call is about, where there is one
  have hset : ∀ j o, surfaceStep s op = s.setObject j o →
      ((s.objects j).active = true ∧ (s.objects j).SameDamage o
        ∨ (s.objects j).active = false ∧ o.damagePending = false) →
      (s.objects i).active = true ∧ (s.objects i).SameDamage ((surfaceStep s op).objects i)
        ∨ (s.objects i).active = false
          ∧ ((surfaceStep s op).objects i).damagePending = false := by
    intro j o heq ho
    rcases eq_or_ne i j with rfl | hij
    · rw [heq, setObject_objects, Function.update_self]
      exact ho
    · exact hsame (by rw [heq, setObject_objects, Function.update_of_ne hij])
  have hclear : ∀ j, surfaceStep s op = s.clearObject j →
      (s.objects i).active = true ∧ (s.objects i).SameDamage ((surfaceStep s op).objects i)
        ∨ (s.objects i).active = false
          ∧ ((surfaceStep s op).objects i).damagePending = false := by
    intro j heq
    rcases eq_or_ne i j with rfl | hij
    · rw [heq, clearObject_objects, Function.update_self] at hact
      cases hact
    · exact hsame (by rw [heq, clearObject_objects, Function.update_of_ne hij])
  cases op with
  | create ownerPid width height =>
    rcases h : s.surfaceCreate ownerPid width height with _ | ⟨id, s'⟩
    · exact hsame (by simp only [surfaceStep, h]; rfl)
    · obtain ⟨j, offset, -, -, hfree, -, -, -, -, -, -, rfl⟩ := surfaceCreate_spec h
      exact hset j _ (by simp only [surfaceStep, h]; rfl) (.inr ⟨hfree, rfl⟩)
  | retain id =>
    rcases h : s.surfaceRetain id with _ | s'
    · exact hsame (by simp only [surfaceStep, h]; rfl)
    · obtain ⟨j, hj, rfl⟩ := surfaceRetain_spec h
      exact hset j { s.objects j with references := (s.objects j).references + 1 }
        (by simp only [surfaceStep, h]; rfl)
        (.inl ⟨(resolve_eq_some.1 hj).2.2, rfl, rfl, rfl, rfl, rfl, rfl, rfl⟩)
  | release id =>
    rcases h : s.surfaceRelease id with _ | s'
    · exact hsame (by simp only [surfaceStep, h]; rfl)
    · obtain ⟨j, hj, -, ⟨-, rfl⟩ | ⟨-, rfl⟩⟩ := surfaceRelease_spec h
      · exact hclear j (by simp only [surfaceStep, h]; rfl)
      · exact hset j { s.objects j with references := (s.objects j).references - 1 }
          (by simp only [surfaceStep, h]; rfl)
          (.inl ⟨(resolve_eq_some.1 hj).2.2, rfl, rfl, rfl, rfl, rfl, rfl, rfl⟩)
  | discard id =>
    rcases h : s.surfaceDiscard id with _ | s'
    · exact hsame (by simp only [surfaceStep, h]; rfl)
    · obtain ⟨j, -, -, rfl⟩ := surfaceDiscard_spec h
      exact hclear j (by simp only [surfaceStep, h]; rfl)
  | write id pixelOffset data =>
    refine hsame ?_
    simp only [surfaceStep, surfaceWrite]
    split
    · rfl
    · split_ifs <;> rfl

theorem damageStep_noted (t : Surfaces × Reported) (op : DamageOp) (ht : Noted t) :
    Noted (damageStep t op) := by
  cases op with
  | damage id x y width height =>
    rcases h : t.1.surfaceDamage id x y width height with _ | s'
    · simpa only [damageStep, h] using ht
    · obtain ⟨j, rfl, -, hj, hin, hx, hy, hw, hh, rfl⟩ := surfaceDamage_spec h
      simp only [damageStep, h, Nat.add_sub_cancel]
      intro i hact
      rcases eq_or_ne i j with rfl | hij
      · simp only [setObject_objects, Function.update_self]
        refine ⟨iff_of_true rfl (List.cons_ne_nil _ _), fun r earlier hr => ?_⟩
        obtain ⟨rfl, rfl⟩ := List.cons.inj hr
        exact ⟨rfl, hin, hx, hy, hw, hh⟩
      · simp only [setObject_objects, Function.update_of_ne hij] at hact ⊢
        exact ht i hact
  | take id =>
    rcases h : t.1.surfaceTakeDamage id with _ | ⟨packed, s'⟩
    · simpa only [damageStep, h] using ht
    · obtain ⟨j, rfl, -, hj, -, -, rfl⟩ := surfaceTakeDamage_spec h
      simp only [damageStep, h, Nat.add_sub_cancel]
      intro i hact
      rcases eq_or_ne i j with rfl | hij
      · simp only [setObject_objects, Function.update_self]
        exact ⟨iff_of_false (fun h => by cases h) fun h => h rfl, fun r earlier hr => by cases hr⟩
      · simp only [setObject_objects, Function.update_of_ne hij] at hact ⊢
        exact ht i hact
  | other op =>
    intro i hact
    simp only [damageStep] at hact ⊢
    rcases surfaceStep_damage t.1 op i hact with ⟨hbefore, hsame⟩ | ⟨hbefore, hnone⟩
    · rw [if_pos ⟨hbefore, hact⟩]
      exact hsame.notes (ht i hbefore)
    · rw [if_neg fun h => by simp [hbefore] at h]
      refine ⟨iff_of_false (fun h => ?_) fun h => h rfl, fun r earlier hr => by cases hr⟩
      rw [hnone] at h
      cases h

/-- A read returns the latest report. -/
theorem Noted.take {t : Surfaces × Reported} (ht : Noted t) {id packed : ℕ} {s : Surfaces}
    (h : t.1.surfaceTakeDamage id = some (packed, s)) :
    ∃ i earlier, id = i + 1 ∧ t.1.resolve id = some i
      ∧ t.2 i = unpackDamage packed :: earlier
      ∧ (unpackDamage packed).Within (t.1.objects i).bounds := by
  obtain ⟨i, rfl, hi, hact, hpending, rfl, -⟩ := surfaceTakeDamage_spec h
  obtain ⟨r, earlier, hr⟩ := List.exists_cons_of_ne_nil ((ht i hact).pending.1 hpending)
  obtain ⟨hrect, hin, hx, hy, hw, hh⟩ := (ht i hact).latest r earlier hr
  subst hrect
  refine ⟨i, earlier, rfl, resolve_eq_some.2 ⟨rfl, hi, hact⟩, ?_, ?_⟩
  · rw [unpackDamage_pack hx hy hw hh, hr]
  · rwa [unpackDamage_pack hx hy hw hh]

theorem takesAll_iff {t : Surfaces × Reported} (ht : Noted t) (op : DamageOp) :
    TakesAll t op ↔ LatestCovers t op := by
  constructor
  · intro h id i latest earlier hop hres hreported r hr
    obtain ⟨rfl, hi, hact⟩ := resolve_eq_some.1 hres
    have hpending : (t.1.objects i).damagePending = true :=
      (ht i hact).pending.2 (by rw [hreported]; exact List.cons_ne_nil _ _)
    obtain ⟨packed, s, htake⟩ : ∃ packed s, t.1.surfaceTakeDamage (i + 1) = some (packed, s) := by
      unfold surfaceTakeDamage
      rw [hres]
      simp only [hpending]
      exact ⟨_, _, rfl⟩
    obtain ⟨j, earlier', hj, -, hreported', -⟩ := ht.take htake
    obtain rfl : i = j := Nat.succ.inj hj
    obtain ⟨hlatest, -⟩ := List.cons.inj (hreported.symm.trans hreported')
    have := (h _ packed s hop htake).2 r (by
      rw [Nat.add_sub_cancel, hreported]
      exact List.mem_cons_of_mem _ hr)
    rwa [hlatest]
  · intro h id packed s hop htake
    obtain ⟨i, earlier, rfl, hres, hreported, hin⟩ := ht.take htake
    rw [Nat.add_sub_cancel]
    refine ⟨hin, fun r hr => ?_⟩
    rw [hreported] at hr
    rcases List.mem_cons.1 hr with rfl | hr
    · exact ⟨le_rfl, le_rfl, le_rfl, le_rfl⟩
    · exact h _ i _ earlier hop hres hreported r hr

/-- In a run from a fresh arena every read returns a rectangle inside its surface that covers
everything reported before it, just when each finds reports of which the latest covers the
others. -/
theorem damage_covered_iff (arena arenaBytes : ℕ) (ops : List DamageOp) :
    Machine.Meets damageStep TakesAll (freshArena arena arenaBytes, fun _ => []) ops
      ↔ Machine.Meets damageStep LatestCovers (freshArena arena arenaBytes, fun _ => []) ops := by
  refine Machine.meets_congr damageStep (I := Noted) (fun _ op ht => takesAll_iff ht op)
    (fun t op ht _ => damageStep_noted t op ht) ops _ fun i hact => ?_
  have hinactive : ((freshArena arena arenaBytes).objects i).active = false := by
    unfold freshArena surfacesInit
    split_ifs
    · rfl
    · simp
  rw [hinactive] at hact
  cases hact

def twoCorners : List DamageOp :=
  [.other (.create 3 100 100), .damage 1 0 0 10 10, .damage 1 90 90 10 10, .take 1]

/-- The read returns the second corner alone. -/
theorem two_corners_forgotten :
    ¬Machine.Meets damageStep TakesAll (freshArena 0x1000000 surfaceArenaBytes, fun _ => [])
      twoCorners := by
  intro h
  have htake := h.2.2.2.1 1 _ _ rfl rfl
  have := (htake.2 ⟨0, 0, 10, 10⟩ (by decide +kernel)).left
  revert this
  decide +kernel

end DemonOS
