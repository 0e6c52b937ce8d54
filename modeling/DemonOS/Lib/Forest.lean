import Mathlib.Data.Finset.Card

/-!
# Forests given by links to a parent

A partial map `up` gives each node its parent. A node is rooted where its links lead to the root
after finitely many steps. A new node with a rooted parent (`Rooted.mono`) and a node hung under one
that is not below it (`Rooted.rehang`) leave the rest rooted, and no chain is longer than there are
nodes (`Depth.le_of_injective`).
-/

namespace Forest

variable {α : Type*} {up up' : α → Option α} {root : α}

/-- `n` links lead from a node to the root. -/
inductive Depth (up : α → Option α) (root : α) : ℕ → α → Prop
  | root : Depth up root 0 root
  | link {n : ℕ} {x p : α} (hup : up x = some p) (hp : Depth up root n p) : Depth up root (n + 1) x

def Rooted (up : α → Option α) (root x : α) : Prop := ∃ n, Depth up root n x

/-- A node is `a` or its links lead to `a`. -/
inductive Below (up : α → Option α) (a : α) : α → Prop
  | self : Below up a a
  | link {x p : α} (hup : up x = some p) (hp : Below up a p) : Below up a x

theorem Rooted.self : Rooted up root root := ⟨0, .root⟩

theorem Rooted.link {x p : α} (hup : up x = some p) : Rooted up root p → Rooted up root x :=
  fun ⟨n, h⟩ => ⟨n + 1, .link hup h⟩

theorem Rooted.parent {x : α} (h : Rooted up root x) (hx : x ≠ root) :
    ∃ p, up x = some p ∧ Rooted up root p := by
  obtain ⟨n, hn⟩ := h
  cases hn with
  | root => exact absurd rfl hx
  | link hup hp => exact ⟨_, hup, _, hp⟩

theorem Depth.unique (hroot : up root = none) {n m : ℕ} {x : α} (hn : Depth up root n x) :
    Depth up root m x → n = m := by
  induction hn generalizing m with
  | root =>
    intro hm
    cases hm with
    | root => rfl
    | link hup _ => simp [hroot] at hup
  | @link n x p hup _ ih =>
    intro hm
    cases hm with
    | root => simp [hroot] at hup
    | link hup' hp' =>
      obtain rfl : p = _ := Option.some.inj (hup ▸ hup')
      rw [ih hp']

theorem Depth.mono (h : ∀ x p, up x = some p → up' x = some p) {n : ℕ} {x : α}
    (hn : Depth up root n x) : Depth up' root n x := by
  induction hn with
  | root => exact .root
  | link hup _ ih => exact .link (h _ _ hup) ih

theorem Rooted.mono (h : ∀ x p, up x = some p → up' x = some p) {x : α} :
    Rooted up root x → Rooted up' root x := fun ⟨n, hn⟩ => ⟨n, hn.mono h⟩

theorem Rooted.induction {P : α → Prop} (hroot : P root)
    (hlink : ∀ x p, up x = some p → Rooted up root p → P p → P x) {x : α} :
    Rooted up root x → P x := by
  rintro ⟨n, hn⟩
  induction hn with
  | root => exact hroot
  | link hup hp ih => exact hlink _ _ hup ⟨_, hp⟩ ih

theorem Rooted.rehang {w p : α} (hrest : ∀ x ≠ w, up' x = up x) (hw : up' w = some p)
    (hp : Rooted up root p) (hbelow : ¬Below up w p) {x : α} (hx : Rooted up root x) :
    Rooted up' root x := by
  -- the chain from the new parent up never meets `w`
  have hparent : Rooted up' root p := by
    refine hp.induction (P := fun y => ¬Below up w y → Rooted up' root y) (fun _ => .self) ?_ hbelow
    intro y q hup _ ih hy
    have hne : y ≠ w := fun h => hy (h ▸ .self)
    exact .link ((hrest y hne).trans hup) (ih fun h => hy (.link hup h))
  refine hx.induction (P := Rooted up' root) .self ?_
  intro y q hup _ ih
  by_cases hy : y = w
  · exact .link (hy ▸ hw) hparent
  · exact .link ((hrest y hy).trans hup) ih

theorem Depth.above {n : ℕ} {x : α} (hn : Depth up root n x) {k : ℕ} (hk : k ≤ n) :
    ∃ y, Depth up root k y := by
  induction hn with
  | root =>
    obtain rfl : k = 0 := Nat.le_zero.1 hk
    exact ⟨root, .root⟩
  | @link n x p hup hp ih =>
    by_cases h : k = n + 1
    · exact ⟨x, h ▸ .link hup hp⟩
    · exact ih (by omega)

theorem Depth.isSome {n : ℕ} {x : α} (hn : Depth up root (n + 1) x) : (up x).isSome := by
  cases hn with
  | link hup _ => simp [hup]

theorem Depth.le_of_injective (hroot : up root = none) {place : α → ℕ} {limit : ℕ}
    (hplace : ∀ x, (up x).isSome → place x < limit)
    (hinj : ∀ x y, (up x).isSome → (up y).isSome → place x = place y → x = y) {n : ℕ} {x : α}
    (hn : Depth up root n x) : n ≤ limit := by
  have hnodes : ∀ k : ℕ, ∃ y, k < n → Depth up root (k + 1) y := fun k => by
    by_cases hk : k < n
    · obtain ⟨y, hy⟩ := hn.above (Nat.succ_le_of_lt hk)
      exact ⟨y, fun _ => hy⟩
    · exact ⟨x, fun h => absurd h hk⟩
  choose node hnode using hnodes
  have hcard := Finset.card_le_card_of_injOn (s := Finset.range n) (t := Finset.range limit)
    (fun k => place (node k))
    (fun k hk => Finset.mem_coe.2 (Finset.mem_range.2
      (hplace _ (hnode k (Finset.mem_range.1 hk)).isSome)))
    (fun k hk l hl heq => by
      have hk' := hnode k (Finset.mem_range.1 hk)
      have hl' := hnode l (Finset.mem_range.1 hl)
      have hsame := hinj _ _ hk'.isSome hl'.isSome heq
      have := hk'.unique hroot (hsame ▸ hl')
      omega)
  simpa using hcard

end Forest
