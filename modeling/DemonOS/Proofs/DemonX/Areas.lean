import DemonOS.DemonX.Graphics
import DemonOS.Proofs.DemonX.Effects
import Mathlib.Algebra.Order.Ring.Abs

/-!
# What the drawing calls fill

The rectangles in a `PolyFillRectangle` are read back out of its bytes (`fillMessage_rectangles`), and
the pixels of those rectangles are what a call fills (`Drawn.Fills`).
-/

namespace DemonOS

namespace DemonX

def Area.Has (a : Area) (px py : ℤ) : Prop :=
  a.x ≤ px ∧ px < a.x + a.width ∧ a.y ≤ py ∧ py < a.y + a.height

instance (a : Area) (px py : ℤ) : Decidable (a.Has px py) :=
  inferInstanceAs (Decidable (a.x ≤ px ∧ px < a.x + a.width ∧ a.y ≤ py ∧ py < a.y + a.height))

def XRectangle.area (r : XRectangle) : Area := ⟨r.x.toInt, r.y.toInt, r.width.toNat, r.height.toNat⟩

namespace Drawn

variable {α β : Type} {f g : α → Drawn}

theorem forAll_congr : ∀ {l : List α}, (∀ a ∈ l, f a = g a) → forAll f l = forAll g l
  | [], _ => rfl
  | a :: l, h => by
    rw [forAll, forAll, h a List.mem_cons_self,
      forAll_congr fun b hb => h b (List.mem_cons_of_mem a hb)]

theorem forAll_map (h : β → α) : ∀ l : List β, forAll f (l.map h) = forAll (fun b => f (h b)) l
  | [] => rfl
  | b :: l => by rw [List.map_cons, forAll, forAll, forAll_map h l]

end Drawn

/-! ## The bytes of a request -/

def readRectangle (p : ℕ → UInt8) (a : ℕ) : XRectangle :=
  ⟨(read16 p a).toInt16, (read16 p (a + 2)).toInt16, read16 p (a + 4), read16 p (a + 6)⟩

def Message.rectangles (m : Message) : List XRectangle :=
  (List.range ((m.length - 12) / 8)).map fun k => readRectangle m.payload (12 + k * 8)

theorem readRectangle_writeRectangle (p : ℕ → UInt8) (a : ℕ) (r : XRectangle) :
    readRectangle (writeRectangle p a r) a = r := by
  simp (disch := omega) only [readRectangle, writeRectangle, write16, read16_store_of_disjoint,
    read16_store_self]
  simp

theorem readRectangle_writeRectangle_of_disjoint (p : ℕ → UInt8) {a b : ℕ} (r : XRectangle)
    (h : b + 8 ≤ a ∨ a + 8 ≤ b) : readRectangle (writeRectangle p a r) b = readRectangle p b := by
  simp (disch := omega) only [readRectangle, writeRectangle, write16, read16_store_of_disjoint]

theorem readRectangle_foldl : ∀ (rs : List XRectangle) (p : ℕ → UInt8) (n k : ℕ),
    readRectangle ((rs.zipIdx n).foldl (fun p r => writeRectangle p (12 + r.2 * 8) r.1) p)
        (12 + k * 8)
      = if n ≤ k then rs.getD (k - n) (readRectangle p (12 + k * 8)) else readRectangle p (12 + k * 8)
  | [], p, n, k => by simp
  | r :: rs, p, n, k => by
    rw [List.zipIdx_cons, List.foldl_cons, readRectangle_foldl rs]
    rcases lt_trichotomy k n with hlt | rfl | hgt
    · rw [if_neg (by omega), if_neg (by omega),
        readRectangle_writeRectangle_of_disjoint _ _ (by omega)]
    · rw [if_neg (by omega), if_pos le_rfl, Nat.sub_self, readRectangle_writeRectangle]
      rfl
    · rw [if_pos (by omega), if_pos (by omega),
        readRectangle_writeRectangle_of_disjoint _ _ (by omega), show k - n = k - (n + 1) + 1 by omega]
      rfl

theorem fillMessage_rectangles (drawable id : UInt32) (rs : List XRectangle) :
    (fillMessage drawable id rs).rectangles = rs := by
  change (List.range ((12 + rs.length * 8 - 12) / 8)).map _ = rs
  refine List.ext_getElem (by simp) fun k hk hk' => ?_
  rw [List.getElem_map, List.getElem_range]
  exact (readRectangle_foldl rs _ 0 k).trans (by simp [hk'])

/-! ## Pixels -/

/-- One of the rectangles that a call sends has the pixel. -/
def Drawn.Fills (d : Drawn) (px py : ℤ) : Prop :=
  ∃ m ∈ d.messages, ∃ r ∈ m.rectangles, r.area.Has px py

instance (d : Drawn) (px py : ℤ) : Decidable (d.Fills px py) :=
  inferInstanceAs (Decidable (∃ m ∈ d.messages, ∃ r ∈ m.rectangles, r.area.Has px py))

end DemonX

/-!
## The coordinate modes of polygons

`XFillPolygon` fills the triangles between the first point and each two that follow one another.
Relative points are added to the first point instead of the one before, so all triangles are the
right ones just where no point moves between the first and the last two (`fan_eq_iff`), and then the
calls are the same (`xFillPolygon_previous`). A square is filled wrong (`square_filled_wrong`).
-/

namespace DemonX

def Sums : ℤ → ℤ → List XPoint → List XPoint → Prop
  | _, _, [], [] => True
  | x, y, p :: ps, q :: qs =>
    q.x.toInt = x + p.x.toInt ∧ q.y.toInt = y + p.y.toInt ∧ Sums q.x.toInt q.y.toInt ps qs
  | _, _, _, _ => False

instance decidableSums : ∀ (x y : ℤ) (ps qs : List XPoint), Decidable (Sums x y ps qs)
  | _, _, [], [] => isTrue trivial
  | x, y, p :: ps, q :: qs =>
    have := decidableSums q.x.toInt q.y.toInt ps qs
    inferInstanceAs (Decidable
      (q.x.toInt = x + p.x.toInt ∧ q.y.toInt = y + p.y.toInt ∧ Sums q.x.toInt q.y.toInt ps qs))
  | _, _, [], _ :: _ => isFalse id
  | _, _, _ :: _, [] => isFalse id

/-- No step but the last two goes anywhere. -/
def Still : List XPoint → Prop
  | p :: q :: r :: ps => (p.x.toInt = 0 ∧ p.y.toInt = 0) ∧ Still (q :: r :: ps)
  | _ => True

def fan (mode : CoordMode) (origin : Corner) : List XPoint → List (Corner × Corner)
  | p :: q :: ps => fanCorners mode origin p q :: fan mode origin (q :: ps)
  | _ => []

theorem fan_cons (mode : CoordMode) (origin : Corner) (p q : XPoint) (ps : List XPoint) :
    fan mode origin (p :: q :: ps) = fanCorners mode origin p q :: fan mode origin (q :: ps) := rfl

theorem fillFan_eq (gc : GC) (drawable : UInt32) (mode : CoordMode) (origin : Corner) :
    ∀ ps : List XPoint, fillFan gc drawable mode origin ps
      = Drawn.forAll (fun c => fillTriangle gc drawable origin c.1 c.2) (fan mode origin ps)
  | [] => rfl
  | [_] => rfl
  | p :: q :: ps => by rw [fillFan, fan, Drawn.forAll, fillFan_eq gc drawable mode origin (q :: ps)]

variable {origin : Corner} {x y : ℤ} {ps qs : List XPoint}

theorem fanCorners_eq_iff (origin : Corner) {p q p' q' : XPoint} (hpx : p'.x.toInt = x + p.x.toInt)
    (hpy : p'.y.toInt = y + p.y.toInt) (hqx : q'.x.toInt = p'.x.toInt + q.x.toInt)
    (hqy : q'.y.toInt = p'.y.toInt + q.y.toInt) :
    fanCorners .previous origin p q = fanCorners .origin origin p' q'
      ↔ x = origin.x ∧ y = origin.y := by
  simp only [fanCorners, Prod.mk.injEq, Corner.mk.injEq]
  omega

theorem fan_eq_iff (origin : Corner) : ∀ (ps qs : List XPoint) {x y : ℤ}, Sums x y ps qs → 2 ≤ ps.length →
    (fan .previous origin ps = fan .origin origin qs
      ↔ (x = origin.x ∧ y = origin.y) ∧ Still ps)
  | [p, q], [p', q'], x, y, ⟨hpx, hpy, hqx, hqy, _⟩, _ => by
    have hcorners := fanCorners_eq_iff origin hpx hpy hqx hqy
    simp only [fan, Still, List.cons.injEq, and_true, hcorners]
  | p :: q :: r :: ps, p' :: q' :: r' :: qs, x, y, ⟨hpx, hpy, hrest⟩, _ => by
    have hcorners := fanCorners_eq_iff origin hpx hpy hrest.1 hrest.2.1
    have hlater := fan_eq_iff origin (q :: r :: ps) (q' :: r' :: qs) hrest (by simp)
    rw [fan_cons .previous, fan_cons .origin, List.cons.injEq, hcorners, hlater, Still]
    constructor
    · rintro ⟨⟨rfl, rfl⟩, ⟨hx, hy⟩, hstill⟩
      exact ⟨⟨rfl, rfl⟩, ⟨by omega, by omega⟩, hstill⟩
    · rintro ⟨⟨rfl, rfl⟩, ⟨hx, hy⟩, hstill⟩
      exact ⟨⟨rfl, rfl⟩, ⟨by omega, by omega⟩, hstill⟩

/-- Where only the last two steps of a polygon go anywhere from its first point, both modes fill it
alike; elsewhere a triangle is taken that is not one of the polygon. -/
theorem xFillPolygon_previous (gc : GC) (drawable : UInt32) (p p' : XPoint) (ps qs : List XPoint)
    (hsums : Sums 0 0 (p :: ps) (p' :: qs)) :
    (Still ps → xFillPolygon gc drawable (p :: ps) .previous
        = xFillPolygon gc drawable (p' :: qs) .origin)
      ∧ (Still ps ↔ fan .previous ⟨p.x.toInt, p.y.toInt⟩ ps
        = fan .origin ⟨p'.x.toInt, p'.y.toInt⟩ qs) := by
  obtain ⟨hx, hy, hrest⟩ := hsums
  rw [zero_add] at hx hy
  rw [hx, hy] at hrest ⊢
  rcases ps with _ | ⟨q, _ | ⟨r, ps⟩⟩ <;> rcases qs with _ | ⟨q', _ | ⟨r', qs⟩⟩
  · exact ⟨fun _ => rfl, iff_of_true trivial rfl⟩
  · exact absurd hrest id
  · exact absurd hrest id
  · exact absurd hrest id
  · exact ⟨fun _ => rfl, iff_of_true trivial rfl⟩
  · exact absurd hrest.2.2 id
  · exact absurd hrest id
  · exact absurd hrest.2.2 id
  · have hfan := fan_eq_iff ⟨p.x.toInt, p.y.toInt⟩ (q :: r :: ps) (q' :: r' :: qs) hrest
      (by simp)
    simp only [true_and, and_self] at hfan
    refine ⟨fun hstill => ?_, hfan.symm⟩
    rw [xFillPolygon, xFillPolygon, hx, hy, fillFan_eq, fillFan_eq, hfan.2 hstill]

/-- A triangle. -/
theorem xFillPolygon_previous_triangle :
    xFillPolygon { used := true } 1 [⟨10, 10⟩, ⟨4, 0⟩, ⟨0, 4⟩] .previous
      = xFillPolygon { used := true } 1 [⟨10, 10⟩, ⟨14, 10⟩, ⟨14, 14⟩] .origin :=
  (xFillPolygon_previous { used := true } 1 ⟨10, 10⟩ ⟨10, 10⟩ [⟨4, 0⟩, ⟨0, 4⟩]
    [⟨14, 10⟩, ⟨14, 14⟩] (by decide)).1 trivial

/-- The lower left half of a square comes to lie beside it. -/
theorem square_filled_wrong :
    ¬∀ (gc : GC) (drawable : UInt32) (ps qs : List XPoint), Sums 0 0 ps qs → ∀ px py : ℤ,
      (xFillPolygon gc drawable ps .previous).Fills px py
        ↔ (xFillPolygon gc drawable qs .origin).Fills px py := by
  intro h
  have hpixel := h { used := true } 1 [⟨10, 10⟩, ⟨4, 0⟩, ⟨0, 4⟩, ⟨-4, 0⟩]
    [⟨10, 10⟩, ⟨14, 10⟩, ⟨14, 14⟩, ⟨10, 14⟩] (by decide) 8 13
  exact absurd hpixel (by decide +kernel)

end DemonX

/-!
## Filled arcs

For a row of an ellipse the loop of `XFillArc` looks for the last column whose square is still within
the bound. It stops by the radius, its products fit 64 bits (`arcReach_spec`), and what it finds is
the half width of the row exactly (`arcHalf_spec`). So the rows cover each point of the ellipse once,
and no other (`xFillArc_ellipse`).
-/

namespace DemonX

/-! ### Products of 64 bits -/

theorem checked_eq {v : ℤ} (hlow : -2 ^ 63 ≤ v) (hhigh : v < 2 ^ 63) : checked 64 v = some v :=
  if_pos ⟨hlow, hhigh⟩

theorem mul_small {a b : ℤ} {m n : ℕ} (ha : 0 ≤ a ∧ a ≤ 2 ^ m) (hb : 0 ≤ b ∧ b ≤ 2 ^ n) :
    0 ≤ a * b ∧ a * b ≤ 2 ^ (m + n) :=
  ⟨Int.mul_nonneg ha.1 hb.1, by
    rw [Int.pow_add]
    exact Int.mul_le_mul ha.2 hb.2 hb.1 (Int.le_trans ha.1 ha.2)⟩

theorem checked_small {v : ℤ} (h : 0 ≤ v ∧ v ≤ 2 ^ 60) : checked 64 v = some v :=
  checked_eq (by omega) (by omega)

theorem product_four {a b : ℤ} (ha : 0 ≤ a ∧ a ≤ 2 ^ 15) (hb : 0 ≤ b ∧ b ≤ 2 ^ 15) :
    product 64 [a, a, b, b] = some (a * a * b * b) := by
  have h₂ := mul_small ha ha
  have h₃ := mul_small h₂ hb
  have h₄ := mul_small h₃ hb
  unfold product
  simp only [List.foldlM_cons, List.foldlM_nil, one_mul]
  rw [checked_small (v := a) (by omega)]
  dsimp only [Option.bind_eq_bind, Option.bind_some]
  rw [checked_small (v := a * a) (by omega)]
  dsimp only [Option.bind_some]
  rw [checked_small (v := a * a * b) (by omega)]
  dsimp only [Option.bind_some]
  rw [checked_small (v := a * a * b * b) (by omega)]
  rfl

theorem product_three {a b : ℤ} (ha : 0 ≤ a ∧ a ≤ 2 ^ 30) (hb : 0 ≤ b ∧ b ≤ 2 ^ 15) :
    product 64 [a, b, b] = some (a * b * b) := by
  have h₂ := mul_small ha hb
  have h₃ := mul_small h₂ hb
  unfold product
  simp only [List.foldlM_cons, List.foldlM_nil, one_mul]
  rw [checked_small (v := a) (by omega)]
  dsimp only [Option.bind_eq_bind, Option.bind_some]
  rw [checked_small (v := a * b) (by omega)]
  dsimp only [Option.bind_some]
  rw [checked_small (v := a * b * b) (by omega)]
  rfl

/-! ### The search for the last column -/

def Radius (r : ℤ) : Prop := 1 ≤ r ∧ r < 2 ^ 15

variable {a b r other remain p : ℤ}

/-- The search stops, at the last square within the bound. -/
theorem arcReach_spec (ha : Radius a) (hb : Radius b) (hremain : 0 ≤ remain ∧ remain ≤ a * a) :
    ∀ (turns : ℕ) (p : ℤ), b + 1 < p + turns → 0 ≤ p → p ≤ b → p * p * a * a ≤ remain * b * b →
      ∃ q, arcReach a b remain turns p = some q ∧ 0 ≤ q ∧ q ≤ b
        ∧ q * q * a * a ≤ remain * b * b ∧ remain * b * b < (q + 1) * (q + 1) * a * a
  | 0, p, hturns, _, hle, _ => absurd hturns (by omega)
  | turns + 1, p, hturns, hpos, hle, hin => by
    have hsquare : a * a ≤ 2 ^ 30 := (mul_small (m := 15) (n := 15) (a := a) (b := a)
      ⟨by have := ha.1; omega, by have := ha.2; omega⟩
      ⟨by have := ha.1; omega, by have := ha.2; omega⟩).2
    have hreach := product_four (a := p + 1) (b := a)
      ⟨by omega, by have := hb.2; omega⟩ ⟨by have := ha.1; omega, by have := ha.2; omega⟩
    have hlimit := product_three (a := remain) (b := b)
      ⟨hremain.1, by omega⟩ ⟨by have := hb.1; omega, by have := hb.2; omega⟩
    unfold arcReach
    rw [hreach, hlimit]
    dsimp only
    split_ifs with hmore
    · refine arcReach_spec ha hb hremain turns (p + 1) (by push_cast at hturns; omega) (by omega)
        ?_ hmore
      -- one column further than `b` the square is past the bound
      by_contra hfar
      have hlast : p = b := by omega
      subst hlast
      have hbound : remain * p * p ≤ a * a * p * p :=
        mul_le_mul_of_nonneg_right (mul_le_mul_of_nonneg_right hremain.2 hpos) hpos
      have hpast : a * a * p * p < (p + 1) * (p + 1) * a * a := by
        have hpositive : 0 < a * a := mul_pos (by have := ha.1; omega) (by have := ha.1; omega)
        nlinarith
      omega
    · exact ⟨p, rfl, hpos, hle, hin, not_le.1 hmore⟩

theorem arcRemain_eq (hr : Radius r) (hp : -r ≤ p ∧ p ≤ r) :
    arcRemain r p = some (r * r - p * p) := by
  have hr' : 0 ≤ r ∧ r ≤ 2 ^ 15 := ⟨by have := hr.1; omega, by have := hr.2; omega⟩
  have hrr := mul_small hr' hr'
  have hpp : 0 ≤ p * p ∧ p * p ≤ r * r := ⟨mul_self_nonneg p, by nlinarith [hp.1, hp.2]⟩
  have hsquare : ∀ {v : ℤ}, -2 ^ 15 ≤ v → v ≤ 2 ^ 15 → 0 ≤ v * v → v * v ≤ 2 ^ 30 →
      product 64 [v, v] = some (v * v) := fun hlow hhigh hnonneg hle => by
    unfold product
    simp only [List.foldlM_cons, List.foldlM_nil, one_mul]
    rw [checked_eq (by omega) (by omega)]
    dsimp only [Option.bind_eq_bind, Option.bind_some]
    rw [checked_eq (by omega) (by omega)]
    rfl
  unfold arcRemain
  rw [hsquare (by omega) hr'.2 hrr.1 hrr.2, hsquare (by omega) (by omega) hpp.1 (by omega)]
  exact checked_eq (by omega) (by omega)

/-- The half width of a row is that of the ellipse. -/
theorem arcHalf_spec (hr : Radius r) (hother : Radius other) (hp : -r ≤ p ∧ p ≤ r) :
    ∃ q, arcHalf r other p = some q ∧ 0 ≤ q ∧ q ≤ other
      ∧ ∀ u : ℤ, -q ≤ u ∧ u ≤ q ↔ u ^ 2 * r ^ 2 + p ^ 2 * other ^ 2 ≤ r ^ 2 * other ^ 2 := by
  have hpp : p * p ≤ r * r := by nlinarith [hp.1, hp.2]
  have hremain : 0 ≤ r * r - p * p ∧ r * r - p * p ≤ r * r :=
    ⟨by omega, by have := mul_self_nonneg p; omega⟩
  have hpos : 0 < r := hr.1
  have hother0 : 0 ≤ other := le_trans zero_le_one hother.1
  have hstart : 0 * 0 * r * r ≤ (r * r - p * p) * other * other := by
    simpa using mul_nonneg (mul_nonneg hremain.1 hother0) hother0
  obtain ⟨q, hq, hnonneg, hle, hin, hout⟩ := arcReach_spec hr hother hremain (other.toNat + 2) 0
    (by push_cast; omega) le_rfl hother0 hstart
  refine ⟨q, ?_, hnonneg, hle, fun u => ?_⟩
  · unfold arcHalf
    rw [arcRemain_eq hr hp]
    exact hq
  · have hrr : 0 < r * r := mul_pos hpos hpos
    have hbound : u ^ 2 * r ^ 2 + p ^ 2 * other ^ 2 ≤ r ^ 2 * other ^ 2
        ↔ u * u * (r * r) ≤ (r * r - p * p) * other * other := by
      constructor <;> intro h <;> linarith
    have hlow : q * q * (r * r) ≤ (r * r - p * p) * other * other := by linarith
    have hhigh : (r * r - p * p) * other * other < (q + 1) * (q + 1) * (r * r) := by linarith
    rw [hbound]
    constructor
    · rintro ⟨hleft, hright⟩
      have huu : u * u ≤ q * q := by nlinarith
      exact (mul_le_mul_of_nonneg_right huu hrr.le).trans hlow
    · intro hinside
      have huu : u * u < (q + 1) * (q + 1) :=
        lt_of_mul_lt_mul_right (hinside.trans_lt hhigh) hrr.le
      have habs := abs_lt_of_sq_lt_sq (a := u) (b := q + 1) (by linarith) (by omega)
      rw [abs_lt] at habs
      omega

/-! ### The rows -/

theorem mem_across : p ∈ across r ↔ -r ≤ p ∧ p ≤ r := by
  unfold across
  rw [List.mem_map]
  constructor
  · rintro ⟨k, hk, rfl⟩
    rw [List.mem_range] at hk
    omega
  · intro h
    exact ⟨(p + r).toNat, List.mem_range.2 (by omega), by omega⟩

theorem across_nodup (r : ℤ) : (across r).Nodup :=
  List.nodup_range.map fun j k (h : (j : ℤ) - r = k - r) => by omega

theorem countP_across {v : ℤ} {P : Prop} [Decidable P]
    (hrows : P → -r ≤ v ∧ v ≤ r) {q : ℤ → Prop} [DecidablePred q]
    (hq : ∀ p ∈ across r, q p ↔ p = v ∧ P) :
    (across r).countP (fun p => q p) = if P then 1 else 0 := by
  have hcongr : (across r).countP (fun p => q p) = (across r).countP fun p => p = v ∧ P :=
    List.countP_congr fun p hp => by simpa using hq p hp
  rw [hcongr]
  split_ifs with hP
  · have hcount : (across r).count v = 1 :=
      List.count_eq_one_of_mem (across_nodup r) (mem_across.2 (hrows hP))
    rw [← hcount, List.count]
    exact List.countP_congr fun p _ => by simp [hP]
  · rw [List.countP_eq_zero]
    intro p _
    simp [hP]

theorem radius_eq {size : UInt32} (hsize : size ≤ 65535) : radius size = (size.toNat / 2 : ℕ) := by
  have hle : size.toNat ≤ 65535 := hsize
  have hint : size.toInt32.toInt = size.toNat := by
    have hcond : size.toInt32.toInt = size.toBitVec.toInt := rfl
    rw [hcond, BitVec.toInt_eq_toNat_cond, if_pos (by
      have : size.toBitVec.toNat = size.toNat := rfl
      omega)]
    rfl
  unfold radius
  rw [hint]
  rfl

theorem radius_fits {size : UInt32} (hsize : 2 ≤ size ∧ size ≤ 65535) : Radius (radius size) := by
  have hlow : 2 ≤ size.toNat := hsize.1
  have hhigh : size.toNat ≤ 65535 := hsize.2
  rw [radius_eq hsize.2]
  constructor <;> omega

theorem arcSpan_spec {x y rx ry : ℤ} (hrx : Radius rx) (hry : Radius ry) (hp : -ry ≤ p ∧ p ≤ ry) :
    ∃ a, arcSpan x y rx ry p = some a ∧ a.height = 1 ∧ a.width ≤ 65535
      ∧ (x ≤ a.x ∧ a.x + a.width ≤ x + 2 * rx + 1) ∧ a.y = y + ry + p
      ∧ ∀ u : ℤ, a.x ≤ x + rx + u ∧ x + rx + u < a.x + a.width
        ↔ u ^ 2 * ry ^ 2 + p ^ 2 * rx ^ 2 ≤ rx ^ 2 * ry ^ 2 := by
  obtain ⟨q, hq, hnonneg, hle, hin⟩ := arcHalf_spec hry hrx hp
  have hfits := hrx.2
  refine ⟨⟨x + rx - q, y + ry + p, (q * 2 + 1).toNat, 1⟩, by rw [arcSpan, hq]; rfl, rfl,
    by dsimp only; omega, by dsimp only; omega, rfl, fun u => ?_⟩
  rw [mul_comm (rx ^ 2), ← hin]
  dsimp only
  constructor <;> intro h <;> omega

/-- `XFillArc` of a full circle comes to its end, and the rectangles it fills cover each point of the
ellipse once and no other. -/
theorem xFillArc_ellipse (gc : GC) (drawable : UInt32) (x y : ℤ) (width height : UInt32)
    (hwidth : 2 ≤ width ∧ width ≤ 65535) (hheight : 2 ≤ height ∧ height ≤ 65535) :
    ∃ spans : List Area,
      (across (radius height)).map (arcSpan x y (radius width) (radius height)) = spans.map some
        ∧ xFillArc gc drawable x y width height 0 fullCircle
          = Drawn.forAll (xFillRectangle gc drawable) spans
        ∧ (∀ a ∈ spans, a.width ≤ 65535 ∧ a.height = 1 ∧ x ≤ a.x ∧ a.x + a.width ≤ x + width.toNat + 1
          ∧ y ≤ a.y ∧ a.y ≤ y + height.toNat)
        ∧ ∀ u v : ℤ, spans.countP (fun a => a.Has (x + (width.toNat / 2 : ℕ) + u)
            (y + (height.toNat / 2 : ℕ) + v))
          = if u ^ 2 * (height.toNat / 2 : ℕ) ^ 2 + v ^ 2 * (width.toNat / 2 : ℕ) ^ 2
              ≤ ((width.toNat / 2 : ℕ) : ℤ) ^ 2 * (height.toNat / 2 : ℕ) ^ 2 then 1 else 0 := by
  have hrx := radius_fits hwidth
  have hry := radius_fits hheight
  have hwide := radius_eq hwidth.2
  have hhigh := radius_eq hheight.2
  have hspan := fun p (hp : p ∈ across (radius height)) =>
    arcSpan_spec (x := x) (y := y) hrx hry (mem_across.1 hp)
  -- a span for every row, and some rectangle elsewhere
  let span := fun p => (arcSpan x y (radius width) (radius height) p).getD ⟨0, 0, 0, 0⟩
  have hsome : ∀ p ∈ across (radius height),
      arcSpan x y (radius width) (radius height) p = some (span p) := fun p hp => by
    obtain ⟨a, ha, -⟩ := hspan p hp
    change _ = some ((arcSpan x y (radius width) (radius height) p).getD _)
    rw [ha]
    rfl
  refine ⟨(across (radius height)).map span, ?_, ?_, fun a ha => ?_, fun u v => ?_⟩
  · rw [List.map_map]
    exact List.map_congr_left hsome
  · unfold xFillArc
    rw [if_neg, Drawn.forAll_map]
    · refine Drawn.forAll_congr fun p hp => ?_
      rw [hsome p hp]
    · have hnarrow : ¬width < 2 := UInt32.not_lt.2 hwidth.1
      have hlow : ¬height < 2 := UInt32.not_lt.2 hheight.1
      simp [hnarrow, hlow]
  · obtain ⟨p, hp, rfl⟩ := List.mem_map.1 ha
    obtain ⟨a, ha, hrow, hfits, hcolumns, hy, -⟩ := hspan p hp
    obtain rfl : span p = a := Option.some.inj ((hsome p hp).symm.trans ha)
    have hrows := mem_across.1 hp
    refine ⟨hfits, hrow, hcolumns.1, ?_, ?_, ?_⟩ <;> omega
  · rw [List.countP_map, ← hwide, ← hhigh]
    refine countP_across (v := v) (fun hin => ?_) fun p hp => ?_
    · have hrows : v * v ≤ radius height * radius height := by
        have hpos : 0 < radius width ^ 2 := pow_pos hrx.1 2
        have hnonneg : 0 ≤ u ^ 2 * radius height ^ 2 := by positivity
        have hle : v ^ 2 * radius width ^ 2 ≤ radius height ^ 2 * radius width ^ 2 := by linarith
        have := le_of_mul_le_mul_right hle hpos
        linarith
      have habs := abs_le_of_sq_le_sq (a := v) (b := radius height) (by linarith)
        (le_trans zero_le_one hry.1)
      exact abs_le.1 habs
    · obtain ⟨a, ha, hrow, -, -, hy, hin⟩ := hspan p hp
      obtain rfl : span p = a := Option.some.inj ((hsome p hp).symm.trans ha)
      have hcolumns := hin u
      constructor
      · rintro ⟨hleft, hright, htop, hbottom⟩
        have hat : p = v := by omega
        exact ⟨hat, hat ▸ hcolumns.1 ⟨hleft, hright⟩⟩
      · rintro ⟨rfl, hinside⟩
        obtain ⟨hleft, hright⟩ := hcolumns.2 hinside
        exact ⟨hleft, hright, by omega, by omega⟩

/-- An ellipse of 7 by 5 points, with the end of its middle row. -/
theorem xFillArc_ellipse_six :
    ∃ spans : List Area, xFillArc {} 1 3 5 6 4 0 fullCircle = Drawn.forAll (xFillRectangle {} 1) spans
      ∧ spans.countP (fun a => a.Has 9 7) = 1 := by
  obtain ⟨spans, -, hcall, -, hcover⟩ := xFillArc_ellipse {} 1 3 5 6 4 (by decide) (by decide)
  exact ⟨spans, hcall, (hcover 3 0).trans (if_pos (by decide))⟩

end DemonX

end DemonOS
