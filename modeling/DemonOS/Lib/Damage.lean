import Mathlib.Data.Set.Basic

/-!
# Copies with damage

A copy that is brought up to date piece by piece shows what is wanted everywhere but at the places
of the damage (`Synced`). Changing what is wanted costs the places where it changes
(`Synced.draw`), and showing places as they are wanted takes them out of the damage
(`Synced.repaint`).
-/

namespace Damage

variable {α β σ ι : Type*}

def Synced (damage : Set α) (want shown : α → β) : Prop := ∀ p, p ∉ damage → shown p = want p

variable {damage damage' region : Set α} {want want' shown shown' : α → β}

theorem Synced.draw (h : Synced damage want shown) (hmore : damage ⊆ damage')
    (hwant : ∀ p, p ∉ damage' → want' p = want p) : Synced damage' want' shown := fun p hp =>
  (h p fun hmem => hp (hmore hmem)).trans (hwant p hp).symm

theorem Synced.repaint (h : Synced damage want shown) (hin : ∀ p, p ∈ region → shown' p = want' p)
    (hout : ∀ p, p ∉ damage → p ∉ region → want' p = want p ∧ shown' p = shown p) :
    Synced (damage \ region) want' shown' := by
  intro p hp
  by_cases hmem : p ∈ region
  · exact hin p hmem
  · have hold : p ∉ damage := fun hdamage => hp ⟨hdamage, hmem⟩
    obtain ⟨hwant, hshown⟩ := hout p hold hmem
    rw [hwant, hshown, h p hold]

theorem foldl_shows [DecidableEq α] (turn : σ → ι → σ) (view : σ → β) (place : ι → α) (p : α)
    (v : β) : ∀ (l : List ι) (s : σ),
    (∀ i ∈ l, ∀ s, view (turn s i) = if place i = p then v else view s) →
      (p ∈ l.map place → view (l.foldl turn s) = v)
        ∧ (p ∉ l.map place → view (l.foldl turn s) = view s)
  | [], s, _ => ⟨fun hmem => absurd hmem List.not_mem_nil, fun _ => rfl⟩
  | i :: l, s, h => by
    obtain ⟨hin, hout⟩ := foldl_shows turn view place p v l (turn s i) fun j hj =>
      h j (List.mem_cons_of_mem i hj)
    have hfirst := h i List.mem_cons_self s
    rw [List.foldl_cons, List.map_cons, List.mem_cons]
    refine ⟨fun hmem => ?_, fun hnot => ?_⟩
    · by_cases hrest : p ∈ l.map place
      · exact hin hrest
      · rw [hout hrest, hfirst, if_pos (hmem.resolve_right hrest).symm]
    · rw [hout fun hmem => hnot (.inr hmem), hfirst, if_neg fun heq => hnot (.inl heq.symm)]

end Damage
