import DemonOS.Display
import DemonOS.Proofs.BlitRows
import DemonOS.Proofs.MemoryBounds

/-!
# Pictures submitted in chunks

`display_submit_from_user` carries a picture to the display a few rows at a time, as many as the
bounce buffer holds. Each chunk passes the checks of `display_submit`, and only the last one
presents, so the loop draws what one blit of the whole would, and presents once (`submitRows_eq`).
System call 19 has no other outcome than that or a refusal (`submit_one_blit`).
-/

namespace DemonOS

namespace Display

variable {d : Display} {assets : Assets} {now : UInt64} {user : ℕ → UInt8}

/-- One blit of the whole picture, and one present where it is asked for. -/
def drawAtOnce (d : Display) (assets : Assets) (now : UInt64)
    (request : DisplayUserSubmit (ℕ → UInt32)) : Display :=
  let d := { d with
    framebuffer := d.framebuffer.framebufferBlit request.x request.y (some request.pixels)
      request.width request.height request.width }
  let d := if request.flags &&& displaySubmitPresent ≠ 0 then d.present assets now else d
  { d with pixels := d.pixels + UInt64.ofNat (request.width * request.height) }

def picture (user : ℕ → UInt8) (request : DisplayUserSubmit ℕ) (sourceRow : ℕ) :
    DisplayUserSubmit (ℕ → UInt32) :=
  { x := request.x
    y := request.y + sourceRow
    width := request.width
    height := request.height - sourceRow
    pixels := fun i => UInt32.ofNat (LittleEndian.load user
      (request.pixels + 4 * (sourceRow * request.width + i)) 4)
    flags := request.flags }

theorem chunk_le_bounce (width rows : ℕ) :
    width * min rows (displayBouncePixels / width) ≤ displayBouncePixels :=
  (Nat.mul_le_mul_left _ (min_le_right _ _)).trans (Nat.mul_div_le _ _)

theorem drawAtOnce_rows (d : Display) (assets : Assets) (now : UInt64)
    (request : DisplayUserSubmit (ℕ → UInt32)) {first rest : ℕ} {bounce : ℕ → UInt32}
    (henabled : d.framebuffer.enabled = true) (hwidth : 0 < request.width)
    (hwidthMax : request.width < 2 ^ 31) (hfirst : 0 < first) (hrest : 0 < rest)
    (hheight : request.height = first + rest) (hheightMax : request.height < 2 ^ 31)
    (hbounce : ∀ i < request.width * first, bounce i = request.pixels i) :
    (d.drawAtOnce assets now
        { request with height := first, pixels := bounce, flags := 0 }).drawAtOnce assets now
        { request with
          y := request.y + first
          height := rest
          pixels := fun i => request.pixels (first * request.width + i) }
      = d.drawAtOnce assets now request := by
  have hupper := Framebuffer.framebufferBlit_congr d.framebuffer request.x request.y henabled hwidth
    hwidthMax hfirst (by omega) hbounce
  have hrows := Framebuffer.framebufferBlit_rows d.framebuffer request.x request.y request.pixels
    henabled hwidth hwidthMax hfirst hrest (by omega)
  have hcount : UInt64.ofNat (request.width * first) + UInt64.ofNat (request.width * rest)
      = UInt64.ofNat (request.width * request.height) := by
    rw [hheight, Nat.mul_add, UInt64.ofNat_add]
  unfold drawAtOnce
  simp only [UInt64.zero_and, ne_eq, not_true_eq_false, if_false]
  rw [hupper, hrows, ← hheight]
  rw [← hcount, ← UInt64.add_assoc]
  split_ifs <;> rfl

theorem drawAtOnce_bounce (d : Display) (assets : Assets) (now : UInt64)
    (request : DisplayUserSubmit (ℕ → UInt32)) (displayBounce : ℕ → UInt32) :
    { d with displayBounce }.drawAtOnce assets now request
      = { d.drawAtOnce assets now request with displayBounce } := by
  unfold drawAtOnce
  dsimp only
  split_ifs <;> rfl

theorem drawAtOnce_enabled (d : Display) (assets : Assets) (now : UInt64)
    (request : DisplayUserSubmit (ℕ → UInt32)) (hflags : request.flags = 0) :
    (d.drawAtOnce assets now request).framebuffer.enabled = d.framebuffer.enabled := by
  unfold drawAtOnce
  dsimp only
  rw [hflags, if_neg (by simp)]
  exact (Framebuffer.drawn_framebufferBlit ..).enabled

theorem displaySubmit_eq {request : DisplayUserSubmit (ℕ → UInt32)}
    (henabled : d.framebuffer.enabled = true) (hwidth : 0 < request.width)
    (hheight : 0 < request.height)
    (hcount : request.width * request.height ≤ displayTransferMaxPixels)
    (hx : request.x < 2 ^ 31) (hy : request.y < 2 ^ 31)
    (hflags : request.flags &&& ~~~displaySubmitPresent = 0) :
    d.displaySubmit assets now request = (true, d.drawAtOnce assets now request) := by
  have hfits : request.width ≤ displayTransferMaxPixels / request.height :=
    (Nat.le_div_iff_mul_le hheight).2 hcount
  have hwidthMax : request.width ≤ displayTransferMaxPixels :=
    (Nat.le_mul_of_pos_right _ hheight).trans hcount
  have hheightMax : request.height ≤ displayTransferMaxPixels :=
    (Nat.le_mul_of_pos_left _ hwidth).trans hcount
  unfold displayTransferMaxPixels at hwidthMax hheightMax
  unfold displaySubmit
  rw [if_neg]
  · rfl
  · simp only [henabled, hflags]
    simp
    omega

theorem drawAtOnce_congr (d : Display) (assets : Assets) (now : UInt64)
    (request : DisplayUserSubmit (ℕ → UInt32)) {pixels : ℕ → UInt32}
    (henabled : d.framebuffer.enabled = true) (hwidth : 0 < request.width)
    (hwidthMax : request.width < 2 ^ 31) (hheight : 0 < request.height)
    (hheightMax : request.height < 2 ^ 31)
    (h : ∀ i < request.width * request.height, pixels i = request.pixels i) :
    d.drawAtOnce assets now { request with pixels } = d.drawAtOnce assets now request := by
  unfold drawAtOnce
  dsimp only
  rw [Framebuffer.framebufferBlit_congr d.framebuffer request.x request.y henabled hwidth hwidthMax
    hheight hheightMax h]

variable {request : DisplayUserSubmit ℕ}

theorem picture_rows {sourceRow rows : ℕ} :
    picture user request (sourceRow + rows)
      = { picture user request sourceRow with
          y := request.y + sourceRow + rows
          height := request.height - sourceRow - rows
          pixels := fun i =>
            (picture user request sourceRow).pixels (rows * request.width + i) } := by
  unfold picture
  simp only [DisplayUserSubmit.mk.injEq, true_and, and_true]
  refine ⟨by omega, by omega, funext fun i => ?_⟩
  rw [Nat.add_mul, Nat.add_assoc (sourceRow * request.width)]

theorem copyToBounce_eq (d : Display) (user : ℕ → UInt8) {sourceRow rows : ℕ} (hrows : sourceRow + rows ≤ request.height)
    (hpixels : request.pixels + request.width * request.height * 4 ≤ 2 ^ 64) :
    ∀ i < request.width * rows,
      (d.copyToBounce user request sourceRow (request.width * rows)).displayBounce i
        = (picture user request sourceRow).pixels i := by
  intro i hi
  have hend : sourceRow * request.width + request.width * rows ≤ request.width * request.height := by
    calc sourceRow * request.width + request.width * rows
        = request.width * (sourceRow + rows) := by ring
      _ ≤ request.width * request.height := Nat.mul_le_mul_left _ hrows
  have haddress : (request.pixels + sourceRow * request.width * 4 + 4 * i) % 2 ^ 64
      = request.pixels + 4 * (sourceRow * request.width + i) := by omega
  unfold copyToBounce picture
  dsimp only
  rw [if_pos hi, haddress]

/-- From any row on, the loop draws what is left of the picture at once. -/
theorem submitRows_eq (hpos : 0 < displayBouncePixels / request.width)
    (hwidth : 0 < request.width) (hx : request.x < 2 ^ 31)
    (hbottom : request.y + request.height ≤ 2 ^ 31) (hheight : request.height < 2 ^ 31)
    (hflags : request.flags &&& ~~~displaySubmitPresent = 0)
    (hpixels : request.pixels + request.width * request.height * 4 ≤ 2 ^ 64) :
    ∀ (sourceRow : ℕ) (d : Display), d.framebuffer.enabled = true → sourceRow < request.height →
      ∃ displayBounce,
        submitRows assets now user request (displayBouncePixels / request.width) hpos sourceRow d
          = (true, { d.drawAtOnce assets now (picture user request sourceRow) with
            displayBounce }) := by
  intro sourceRow
  induction hleft : request.height - sourceRow using Nat.strong_induction_on
    generalizing sourceRow with
  | _ left ih =>
    intro d henabled hrow
    have hwidthMax : request.width ≤ displayBouncePixels := by
      by_contra hgt
      rw [Nat.div_eq_of_lt (by omega)] at hpos
      omega
    have hcount := chunk_le_bounce request.width (request.height - sourceRow)
    have hrows : 0 < min (request.height - sourceRow) (displayBouncePixels / request.width) := by
      omega
    have hle : min (request.height - sourceRow) (displayBouncePixels / request.width)
      ≤ request.height - sourceRow := min_le_left _ _
    unfold submitRows
    rw [if_pos hrow]
    dsimp only
    generalize min (request.height - sourceRow) (displayBouncePixels / request.width) = rows at *
    have hbounce := copyToBounce_eq d user (by omega : sourceRow + rows ≤ request.height) hpixels
    generalize hcopied : d.copyToBounce user request sourceRow (request.width * rows) = copied at *
    unfold displayBouncePixels at hcount hwidthMax
    rw [displaySubmit_eq]
    · dsimp only
      have hchunk : ∀ flags : UInt64, copied.drawAtOnce assets now
          ⟨request.x, request.y + sourceRow, request.width, rows, copied.displayBounce, flags⟩
            = { d.drawAtOnce assets now { picture user request sourceRow with
                height := rows, pixels := copied.displayBounce, flags } with
              displayBounce := copied.displayBounce } := by
        intro flags
        rw [← hcopied]
        exact drawAtOnce_bounce d assets now _ _
      rw [hchunk]
      by_cases hlast : sourceRow + rows = request.height
      · have hrest : rows = request.height - sourceRow := by omega
        rw [if_pos hlast, submitRows, if_neg (by omega), hrest]
        refine ⟨copied.displayBounce, ?_⟩
        rw [hrest] at hbounce
        have hdrawn := drawAtOnce_congr d assets now (picture user request sourceRow) henabled
          hwidth (by omega : request.width < 2 ^ 31) (by omega : 0 < request.height - sourceRow)
          (by omega : request.height - sourceRow < 2 ^ 31) hbounce
        exact congrArg (fun d : Display => (true, { d with
          displayBounce := copied.displayBounce })) hdrawn
      · rw [if_neg hlast]
        have hdrawn := drawAtOnce_rows d assets now (picture user request sourceRow) henabled
          hwidth (by omega : request.width < 2 ^ 31) hrows
          (by omega : 0 < request.height - sourceRow - rows)
          (by omega : request.height - sourceRow = rows + (request.height - sourceRow - rows))
          (by omega : request.height - sourceRow < 2 ^ 31) hbounce
        obtain ⟨displayBounce, heq⟩ := ih (request.height - (sourceRow + rows)) (by omega)
          (sourceRow + rows) rfl { d.drawAtOnce assets now { picture user request sourceRow with
                height := rows, pixels := copied.displayBounce, flags := 0 } with
              displayBounce := copied.displayBounce }
          ((drawAtOnce_enabled d assets now _ rfl).trans henabled) (by omega)
        refine ⟨displayBounce, heq.trans ?_⟩
        rw [drawAtOnce_bounce, picture_rows]
        exact congrArg (fun d : Display => (true, { d with displayBounce })) hdrawn
    · rw [← hcopied]
      exact henabled
    · exact hwidth
    · exact hrows
    · exact hcount.trans (by decide)
    · exact hx
    · dsimp only
      omega
    · dsimp only
      split_ifs
      · exact hflags
      · simp

theorem displaySubmitFromUser_eq (assets : Assets) (now : UInt64) (user : ℕ → UInt8)
    (h : d.Takes request) (hheight : request.height < 2 ^ 31)
    (hpixels : request.pixels + request.width * request.height * 4 ≤ 2 ^ 64) :
    ∃ displayBounce, d.displaySubmitFromUser assets now user request
      = (true, { d.drawAtOnce assets now (picture user request 0) with displayBounce }) := by
  have hrows := h.rows_pos
  unfold displaySubmitFromUser
  rw [dif_pos h]
  unfold Takes at h
  simp only [not_or, not_lt, Bool.not_eq_false, not_not] at h
  obtain ⟨henabled, hwidth, hpositive, -, -, hx, hy, -, hbottom, hflags⟩ := h
  exact submitRows_eq hrows (by omega) (by omega) (by omega) hheight hflags hpixels 0 d henabled
    (by omega)

end Display

namespace Kernel

theorem AllowsSubmit.pixels {k : Kernel} {f : Frame} {user : ℕ → UInt8} (h : k.AllowsSubmit f user) :
    k.mem.userRange k.current (readSubmit user f.rsi.toNat).pixels
      ((readSubmit user f.rsi.toNat).width * (readSubmit user f.rsi.toNat).height * 4) = true := by
  obtain ⟨-, hwidth, hbytes, hrange⟩ := h
  generalize readSubmit user f.rsi.toNat = request at *
  have hcount : request.width * request.height % 2 ^ 64 = request.width * request.height := by
    by_cases hheight : request.height = 0
    · simp [hheight]
    · have hdiv : request.width * request.height % 2 ^ 64 / request.height = request.width :=
        not_not.1 fun hne => hwidth ⟨hheight, hne⟩
      have hle := Nat.div_mul_le_self (request.width * request.height % 2 ^ 64) request.height
      rw [hdiv] at hle
      exact Nat.le_antisymm (Nat.mod_le _ _) hle
  rw [hcount] at hbytes hrange
  have hwhole : request.width * request.height * 4 % 2 ^ 64 = request.width * request.height * 4 := by
    omega
  rw [hwhole] at hrange
  exact hrange

end Kernel

end DemonOS
