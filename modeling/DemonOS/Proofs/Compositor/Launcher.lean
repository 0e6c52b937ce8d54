import DemonOS.Compositor.Main

/-!
# The launcher and the windows it could show

The launcher looks for a window by its title in upper case. A name it looks for that has a small
letter is found in no title (`findWindowByTitle_small`), so three of the four cells start a program
whatever windows there are (`launcher_reuses_iff`).
-/

namespace DemonOS

namespace Compositor

/-- The applications of the launcher's cells. -/
inductive Application
  | xterm
  | classiCube
  | freedoom
  | quake
  deriving DecidableEq

namespace Application

def cell : Application → ℕ
  | xterm => 0
  | classiCube => 1
  | freedoom => 2
  | quake => 3

def name : Application → String
  | xterm => "xterm"
  | classiCube => "ClassiCube"
  | freedoom => "Freedoom"
  | quake => "Quake"

def title (app : Application) : List UInt8 := app.name.toList.map fun c => UInt8.ofNat c.toNat

end Application

def Window.Titled (w : Window) (app : Application) : Prop :=
  w.inUse = true ∧ demonxWindowIdBase ≤ w.id
    ∧ w.title.1.map Window.asciiUppercase = app.title.map Window.asciiUppercase

namespace Desktop

open Window

variable {s t : Desktop} {slot : ℕ} {app : Application}

/-- The window is shown on its workspace, above all others, and nothing is started. -/
structure Shows (s t : Desktop) (slot : ℕ) : Prop where
  calls : t.calls = s.calls
  workspace : t.currentWorkspace = (s.table slot).workspace
  focused : t.focusedWindow = (s.table slot).id
  there : (t.table slot).id = (s.table slot).id ∧ (t.table slot).minimized = false
  raised : (t.table slot).z = s.nextZ
  above : ∀ i < windowLimit, i ≠ slot → (t.table i).inUse = true →
    (t.table i).z < (t.table slot).z

structure Reuses (s t : Desktop) (app : Application) : Prop where
  shows : (∃ i < windowLimit, (s.table i).Titled app) →
    ∃ slot < windowLimit, (s.table slot).Titled app ∧ Shows s t slot
  starts : (¬∃ i < windowLimit, (s.table i).Titled app) → app ≠ .xterm →
    t.table = s.table ∧ ∃ program services, t.calls = s.calls ++ [.spawn program services]

theorem asciiUppercase_big (c : UInt8) :
    ¬(0x61 ≤ asciiUppercase c ∧ asciiUppercase c ≤ 0x7A) := by
  have hall : ∀ n < 256, ¬(0x61 ≤ asciiUppercase (UInt8.ofNat n)
      ∧ asciiUppercase (UInt8.ofNat n) ≤ 0x7A) := by decide +kernel
  simpa using hall c.toNat c.toNat_lt

/-- A text with a small letter is no window's title. -/
theorem findWindowByTitle_small {table : WindowTable} {wanted : List UInt8} {c : UInt8}
    (hc : c ∈ wanted) (hsmall : 0x61 ≤ c ∧ c ≤ 0x7A) : findWindowByTitle table wanted = none := by
  refine Table.firstIndex_eq_none.2 fun i _ => ?_
  simp only [Bool.and_eq_false_imp, Bool.and_eq_true, beq_eq_false_iff_ne]
  rintro - rfl
  unfold titleText at hc
  split_ifs at hc
  · simp only [List.mem_cons, List.not_mem_nil, or_false] at hc
    rcases hc with rfl | rfl | rfl | rfl | rfl | rfl <;> revert hsmall <;> decide
  · obtain ⟨b, -, rfl⟩ := List.mem_map.1 hc
    exact asciiUppercase_big b hsmall

theorem titled_xterm {w : Window} : w.Titled .xterm
    ↔ w.inUse = true ∧ demonxWindowIdBase ≤ w.id ∧ w.titleText = [0x58, 0x54, 0x45, 0x52, 0x4D] := by
  unfold Window.Titled titleText
  rw [show Application.xterm.title.map asciiUppercase = [0x58, 0x54, 0x45, 0x52, 0x4D] by decide]
  refine and_congr_right fun _ => and_congr_right fun _ => ?_
  split_ifs with hempty
  · rw [List.length_eq_zero_iff.1 hempty]
    decide
  · rfl

def xtermWindow (s : Desktop) : Option ℕ := findWindowByTitle s.table [0x58, 0x54, 0x45, 0x52, 0x4D]

theorem activateLauncherCell_xterm (s : Desktop) :
    (∃ slot < windowLimit, s.xtermWindow = some slot ∧ (s.table slot).Titled .xterm
        ∧ s.activateLauncherCell 0
          = { s.restore slot with currentWorkspace := (s.table slot).workspace })
      ∨ ((∀ i < windowLimit, ¬(s.table i).Titled .xterm) ∧ s.activateLauncherCell 0 = s) := by
  unfold activateLauncherCell
  simp only [launcherCell]
  rcases hfind : findWindowByTitle s.table [0x58, 0x54, 0x45, 0x52, 0x4D] with _ | slot
  · refine .inr ⟨fun i hi htitled => ?_, rfl⟩
    have hno := Table.firstIndex_eq_none.1 hfind i hi
    obtain ⟨huse, hid, htext⟩ := titled_xterm.1 htitled
    simp [huse, hid, htext] at hno
  · obtain ⟨hslot, hyes, -⟩ := Table.firstIndex_eq_some.1 hfind
    simp only [Bool.and_eq_true, decide_eq_true_eq, beq_iff_eq] at hyes
    exact .inl ⟨slot, hslot, hfind, titled_xterm.2 ⟨hyes.1.1, hyes.1.2, hyes.2⟩, rfl⟩

theorem activateLauncherCell_starts (s : Desktop) (happ : app ≠ .xterm) :
    ∃ program services,
      s.activateLauncherCell app.cell = s.call (.spawn program services) := by
  unfold activateLauncherCell
  cases app with
  | xterm => exact absurd rfl happ
  | classiCube =>
    refine ⟨.classicube, classicubeServiceMask, ?_⟩
    simp only [Application.cell, launcherCell]
    rw [findWindowByTitle_small (c := 0x6C) (by decide) (by decide)]
  | freedoom =>
    refine ⟨.doom, doomServiceMask, ?_⟩
    simp only [Application.cell, launcherCell]
    rw [findWindowByTitle_small (c := 0x72) (by decide) (by decide)]
  | quake =>
    refine ⟨.quake, classicubeServiceMask, ?_⟩
    simp only [Application.cell, launcherCell]
    rw [findWindowByTitle_small (c := 0x75) (by decide) (by decide)]

def Below (s : Desktop) (slot : ℕ) : Prop :=
  ∀ i < windowLimit, i ≠ slot → (s.table i).inUse = true → (s.table i).z < s.nextZ

theorem restore_self (s : Desktop) (slot : ℕ) : (s.restore slot).table slot
    = { s.table slot with minimized := false, z := s.nextZ } := by
  simp [restore, raise, setWindow]

/-- A window that is raised comes above the others just where its new place is above theirs. -/
theorem restore_shows_iff : Shows s
    { s.restore slot with currentWorkspace := (s.table slot).workspace } slot ↔ s.Below slot := by
  have hother : ∀ i, i ≠ slot → (s.restore slot).table i = s.table i := fun i hi => by
    simp [restore, raise, setWindow, hi]
  refine ⟨fun h i hi hne huse => ?_, fun h => ⟨rfl, rfl, rfl, ?_, ?_, fun i hi hne huse => ?_⟩⟩
  · have habove := h.above i hi hne
    dsimp only at habove
    rw [restore_self, hother i hne] at habove
    exact habove huse
  · dsimp only
    rw [restore_self]
    exact ⟨rfl, rfl⟩
  · dsimp only
    rw [restore_self]
  · dsimp only at huse ⊢
    rw [restore_self]
    rw [hother i hne] at huse ⊢
    exact h i hi hne huse

theorem restore_shows_slot {other : ℕ} (hslot : slot < windowLimit)
    (huse : (s.table slot).inUse = true)
    (h : Shows s { s.restore slot with currentWorkspace := (s.table slot).workspace } other) :
    other = slot := by
  by_contra hne
  have habove := h.above slot hslot (Ne.symm hne)
  rw [h.raised] at habove
  dsimp only at habove
  rw [restore_self] at habove
  exact lt_irrefl _ (habove huse)

/-- A window that is there is shown by xterm's cell only. -/
theorem launcher_reuses_iff : Reuses s (s.activateLauncherCell app.cell) app
    ↔ (app = .xterm ∧ ∀ slot, s.xtermWindow = some slot → s.Below slot)
      ∨ ∀ i < windowLimit, ¬(s.table i).Titled app := by
  by_cases happ : app = .xterm
  · subst happ
    rw [show Application.xterm.cell = 0 from rfl]
    rcases activateLauncherCell_xterm s with ⟨slot, hslot, hfind, hfound, heq⟩ | ⟨hnone, -⟩
    · rw [heq, hfind]
      constructor
      · intro hreuses
        obtain ⟨slot', -, -, hshows⟩ := hreuses.shows ⟨slot, hslot, hfound⟩
        refine .inl ⟨rfl, fun _ heq' => ?_⟩
        obtain rfl := Option.some.inj heq'
        obtain rfl := restore_shows_slot hslot hfound.1 hshows
        exact restore_shows_iff.1 hshows
      · rintro (⟨-, hbelow⟩ | hnone)
        · exact ⟨fun _ => ⟨slot, hslot, hfound, restore_shows_iff.2 (hbelow slot rfl)⟩,
            fun _ hne => absurd rfl hne⟩
        · exact absurd hfound (hnone slot hslot)
    · exact ⟨fun _ => .inr hnone, fun _ => ⟨fun ⟨i, hi, htitled⟩ => absurd htitled (hnone i hi),
        fun _ hne => absurd rfl hne⟩⟩
  · obtain ⟨program, services, heq⟩ := activateLauncherCell_starts s happ
    rw [heq]
    constructor
    · refine fun hreuses => .inr fun i hi htitled => ?_
      obtain ⟨slot, -, -, hshows⟩ := hreuses.shows ⟨i, hi, htitled⟩
      exact List.cons_ne_nil _ _ (List.append_right_eq_self.1 hshows.calls)
    · rintro (⟨rfl, -⟩ | hnone)
      · exact absurd rfl happ
      · exact ⟨fun ⟨i, hi, htitled⟩ => absurd htitled (hnone i hi),
          fun _ _ => ⟨rfl, program, services, rfl⟩⟩

def oneWindow (app : Application) : Desktop where
  table := Function.update (fun _ => .empty) 0
    { Window.empty with inUse := true, id := demonxWindowIdBase, workspace := 2, minimized := true,
                        title := ⟨app.title, by cases app <;> decide⟩ }

/-- With a window of Quake, its cell starts another. -/
theorem launcher_starts_another : ((oneWindow .quake).table 0).Titled .quake
    ∧ ((oneWindow .quake).activateLauncherCell Application.quake.cell).calls
      = [.spawn .quake classicubeServiceMask]
    ∧ ¬Reuses (oneWindow .quake)
      ((oneWindow .quake).activateLauncherCell Application.quake.cell) .quake := by
  have htitled : ((oneWindow .quake).table 0).Titled .quake := by
    unfold Window.Titled
    decide
  have hcalls : ((oneWindow .quake).activateLauncherCell Application.quake.cell).calls
      = [.spawn .quake classicubeServiceMask] := by decide +kernel
  refine ⟨htitled, hcalls, fun hreuses => ?_⟩
  obtain ⟨slot, -, -, hshows⟩ := hreuses.shows ⟨0, by decide, htitled⟩
  have hnothing := hcalls.symm.trans hshows.calls
  cases hnothing

end Desktop

end Compositor

end DemonOS
