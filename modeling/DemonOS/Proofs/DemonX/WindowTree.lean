import DemonOS.Proofs.DemonX.Releases
import DemonOS.Lib.Forest

/-!
# The tree of windows

The windows in use form a tree under the root as long as no window is hung below itself, none that
others hang under is destroyed, and no client is released while another client's window hangs under
one of its own (`Process.windows_form_tree`). The server then ends every walk over the descendants of
a window. The last two window records share their bytes with reply handles, so that they have to
stay free.
-/

namespace DemonOS

namespace DemonX

variable {i : ℕ} {id : UInt32} {sys : Answers} {w : Window}

namespace Server

variable {s t : Server}

/-! ## The tree -/

/-- The parent of the window `id`. -/
def up (s : Server) (id : UInt32) : Option UInt32 :=
  (s.findWindow id).map fun i => (s.window i).parent

def Distinguishes (s : Server) : Prop := ∀ i j, i < windowLimit → j < windowLimit →
  (s.window i).used ≠ 0 → (s.window j).used ≠ 0 → (s.window i).id = (s.window j).id → i = j

structure Tree (s : Server) : Prop where
  distinct : s.Distinguishes
  root : ∀ i, i < windowLimit → (s.window i).used ≠ 0 → (s.window i).id ≠ rootWindow
  rooted : ∀ i, i < windowLimit → (s.window i).used ≠ 0 →
    Forest.Rooted s.up rootWindow (s.window i).id

theorem findWindow_id (hdistinct : s.Distinguishes) (hi : i < windowLimit)
    (hused : (s.window i).used ≠ 0) : s.findWindow (s.window i).id = some i := by
  rcases h : s.findWindow (s.window i).id with _ | j
  · have hnone := Table.firstIndex_eq_none.1 h i hi
    simp [hused] at hnone
  · obtain ⟨hlt, hjused, hid⟩ := findWindow_some h
    rw [hdistinct j i hlt hi hjused hused hid]

theorem up_id (hdistinct : s.Distinguishes) (hi : i < windowLimit)
    (hused : (s.window i).used ≠ 0) : s.up (s.window i).id = some (s.window i).parent := by
  rw [up, findWindow_id hdistinct hi hused]
  rfl

theorem up_eq_some {x p : UInt32} (h : s.up x = some p) :
    ∃ i, i < windowLimit ∧ (s.window i).used ≠ 0 ∧ (s.window i).id = x
      ∧ (s.window i).parent = p := by
  obtain ⟨i, hi, rfl⟩ := Option.map_eq_some_iff.1 h
  obtain ⟨hlt, hused, hid⟩ := findWindow_some hi
  exact ⟨i, hlt, hused, hid, rfl⟩

theorem Window.place_eq {w v : Window} (h : w.place = v.place) :
    w.id = v.id ∧ w.parent = v.parent ∧ w.used = v.used ∧ w.ownerClient = v.ownerClient := by
  injection h with hid hparent hused howner
  exact ⟨hid, hparent, hused, howner⟩

namespace Tree

theorem up_root (h : s.Tree) : s.up rootWindow = none := by
  rcases hup : s.up rootWindow with _ | p
  · rfl
  · obtain ⟨i, hi, hused, hid, -⟩ := up_eq_some hup
    exact absurd hid (h.root i hi hused)

theorem depth_le (h : s.Tree) {n : ℕ} {x : UInt32} (hn : Forest.Depth s.up rootWindow n x) :
    n ≤ windowLimit := by
  have hfind : ∀ x, (s.up x).isSome → ∃ i, s.findWindow x = some i := fun x hx =>
    Option.isSome_iff_exists.1 (Option.isSome_map.symm.trans hx)
  have hplace : ∀ x, (s.up x).isSome → (s.findWindow x).getD 0 < windowLimit := fun x hx => by
    obtain ⟨i, hi⟩ := hfind x hx
    rw [hi]
    exact (findWindow_some hi).1
  have hinj : ∀ x y, (s.up x).isSome → (s.up y).isSome →
      (s.findWindow x).getD 0 = (s.findWindow y).getD 0 → x = y := fun x y hx hy heq => by
    obtain ⟨i, hi⟩ := hfind x hx
    obtain ⟨j, hj⟩ := hfind y hy
    rw [hi, hj] at heq
    obtain rfl : i = j := heq
    exact (findWindow_some hi).2.2.symm.trans (findWindow_some hj).2.2
  exact hn.le_of_injective h.up_root hplace hinj

theorem prune (h : s.Tree) (hkept : ∀ i, i < windowLimit → (t.window i).used ≠ 0 →
      (t.window i).place = (s.window i).place)
    (hleaf : ∀ i j, i < windowLimit → j < windowLimit → (s.window i).used ≠ 0 →
      (t.window j).used ≠ 0 → (s.window j).parent = (s.window i).id → (t.window i).used ≠ 0) :
    t.Tree := by
  have hplace : ∀ i, i < windowLimit → (t.window i).used ≠ 0 →
      (t.window i).id = (s.window i).id ∧ (t.window i).parent = (s.window i).parent
        ∧ (s.window i).used ≠ 0 := fun i hi hused => by
    obtain ⟨hid, hparent, hsame, -⟩ := Window.place_eq (hkept i hi hused)
    exact ⟨hid, hparent, hsame ▸ hused⟩
  have hdistinct : t.Distinguishes := fun i j hi hj hui huj heq => by
    obtain ⟨hid, -, hsi⟩ := hplace i hi hui
    obtain ⟨hjd, -, hsj⟩ := hplace j hj huj
    exact h.distinct i j hi hj hsi hsj (hid ▸ hjd ▸ heq)
  refine ⟨hdistinct, fun i hi hused => ?_, fun i hi hused => ?_⟩
  · obtain ⟨hid, -, hs⟩ := hplace i hi hused
    exact hid ▸ h.root i hi hs
  -- every ancestor of a window that stays, stays
  · obtain ⟨hid, -, hs⟩ := hplace i hi hused
    suffices ∀ x, Forest.Rooted s.up rootWindow x → ∀ j, j < windowLimit →
        (t.window j).used ≠ 0 → (s.window j).id = x → Forest.Rooted t.up rootWindow x from
      hid ▸ this _ (h.rooted i hi hs) i hi hused rfl
    intro x hx
    refine hx.induction (P := fun x => ∀ j, j < windowLimit → (t.window j).used ≠ 0 →
      (s.window j).id = x → Forest.Rooted t.up rootWindow x) (fun _ _ _ _ => .self) ?_
    intro x p hup hp ih j hj hjused hjd
    obtain ⟨hjid, hjparent, hsj⟩ := hplace j hj hjused
    have hlink : t.up x = some p := by
      subst hjd
      have hs' := up_id h.distinct hj hsj
      rw [← hjid, up_id hdistinct hj hjused, hjparent, ← hs', hup]
    refine .link hlink ?_
    by_cases hroot : p = rootWindow
    · exact hroot ▸ .self
    · obtain ⟨q, hup', -⟩ := hp.parent hroot
      obtain ⟨k, hk, hsk, hkd, -⟩ := up_eq_some hup'
      have hparent : (s.window j).parent = (s.window k).id := by
        have := up_id h.distinct hj hsj
        rw [hjd, hup] at this
        exact (Option.some.inj this).symm.trans hkd.symm
      exact ih k hk (hleaf k j hk hj hsk hjused hparent) hkd

theorem congr (h : s.Tree) (hplace : ∀ i, i < windowLimit →
    (t.window i).place = (s.window i).place) : t.Tree :=
  h.prune (fun i hi _ => hplace i hi) fun i _ hi _ hused _ _ => by
    rw [(Window.place_eq (hplace i hi)).2.2.1]
    exact hused

theorem graft (h : s.Tree)
    (hset : ∀ j, t.window j = if j = i then w else s.window j) (hfree : (s.window i).used = 0)
    (hid : s.findWindow w.id = none) (hroot : w.id ≠ rootWindow) (hparent : w.parent = rootWindow) :
    t.Tree := by
  have hnew : ∀ j, j < windowLimit → (s.window j).used ≠ 0 → (s.window j).id ≠ w.id :=
    fun j hj hused heq => by
      have := findWindow_id h.distinct hj hused
      rw [heq, hid] at this
      cases this
  have hold : ∀ {j}, (s.window j).used ≠ 0 → t.window j = s.window j := fun {j} hused => by
    rw [hset, if_neg]
    rintro rfl
    exact hused hfree
  have hcases : ∀ j, (t.window j).used ≠ 0 →
      (j = i ∧ t.window j = w) ∨ ((s.window j).used ≠ 0 ∧ t.window j = s.window j) := by
    intro j hused
    rw [hset] at hused ⊢
    split_ifs at hused ⊢ with hj
    · exact .inl ⟨hj, rfl⟩
    · exact .inr ⟨hused, rfl⟩
  have hdistinct : t.Distinguishes := fun j k hj hk huj huk heq => by
    rcases hcases j huj with ⟨hji, hjw⟩ | ⟨hsj, hjw⟩
    · rcases hcases k huk with ⟨hki, -⟩ | ⟨hsk, hkw⟩
      · exact hji.trans hki.symm
      · rw [hjw, hkw] at heq
        exact absurd heq.symm (hnew k hk hsk)
    · rcases hcases k huk with ⟨-, hkw⟩ | ⟨hsk, hkw⟩ <;> rw [hjw, hkw] at heq
      · exact absurd heq (hnew j hj hsj)
      · exact h.distinct j k hj hk hsj hsk heq
  refine ⟨hdistinct, fun j hj hused => ?_, fun j hj hused => ?_⟩
  · rcases hcases j hused with ⟨-, hw⟩ | ⟨hs, hw⟩ <;> rw [hw]
    · exact hroot
    · exact h.root j hj hs
  · rcases hcases j hused with ⟨-, hw⟩ | ⟨hs, hw⟩
    · refine .link (up_id hdistinct hj hused) ?_
      rw [hw, hparent]
      exact .self
    · rw [hw]
      refine (h.rooted j hj hs).mono fun x p hup => ?_
      obtain ⟨k, hk, hks, rfl, rfl⟩ := up_eq_some hup
      rw [← hold hks]
      exact up_id hdistinct hk (by rwa [hold hks])

theorem hang (h : s.Tree) (hi : i < windowLimit)
    (hused : (s.window i).used ≠ 0)
    (hset : ∀ j, t.window j = if j = i then w else s.window j) (hid : w.id = (s.window i).id)
    (hstays : w.used = (s.window i).used)
    (hparent : w.parent = rootWindow ∨ (s.findWindow w.parent).isSome)
    (hbelow : ¬Forest.Below s.up (s.window i).id w.parent) : t.Tree := by
  have hsame : ∀ j, (t.window j).id = (s.window j).id ∧ (t.window j).used = (s.window j).used := by
    intro j
    rw [hset]
    split_ifs with hj
    · exact hj ▸ ⟨hid, hstays⟩
    · exact ⟨rfl, rfl⟩
  have hdistinct : t.Distinguishes := fun j k hj hk huj huk heq => by
    rw [(hsame j).1, (hsame k).1] at heq
    rw [(hsame j).2] at huj
    rw [(hsame k).2] at huk
    exact h.distinct j k hj hk huj huk heq
  have hfind : ∀ x, t.findWindow x = s.findWindow x := fun x => by
    simp only [findWindow, (hsame _).1, (hsame _).2]
  have hrest : ∀ x ≠ (s.window i).id, t.up x = s.up x := fun x hx => by
    rw [up, up, hfind]
    rcases hj : s.findWindow x with _ | j
    · rfl
    · have hne : j ≠ i := by
        rintro rfl
        exact hx (findWindow_some hj).2.2.symm
      rw [Option.map_some, Option.map_some, hset, if_neg hne]
  have hlink : t.up (s.window i).id = some w.parent := by
    rw [up, hfind, findWindow_id h.distinct hi hused, Option.map_some, hset, if_pos rfl]
  have hrooted : Forest.Rooted s.up rootWindow w.parent := by
    rcases hparent with hroot | hsome
    · exact hroot ▸ .self
    · obtain ⟨j, hj⟩ := Option.isSome_iff_exists.1 hsome
      obtain ⟨hlt, hjused, hjd⟩ := findWindow_some hj
      exact hjd ▸ h.rooted j hlt hjused
  refine ⟨hdistinct, fun j hj huj => ?_, fun j hj huj => ?_⟩
  · rw [(hsame j).1]
    exact h.root j hj ((hsame j).2 ▸ huj)
  · rw [(hsame j).1]
    exact Forest.Rooted.rehang hrest hlink hrooted hbelow (h.rooted j hj ((hsame j).2 ▸ huj))

end Tree

/-! ## Walks -/

theorem Beside.up {P : SystemCall → Prop} (h : Beside P s t) : t.up = s.up := by
  funext x
  simp only [Server.up, h.findWindow, h.window]

theorem Beside.tree {P : SystemCall → Prop} (h : Beside P s t) (htree : s.Tree) : t.Tree :=
  htree.congr fun i _ => by rw [h.window]

theorem movePublishedDescendants_isSome (sys : Answers) : ∀ (depth n : ℕ) (x : UInt32) (s : Server),
    s.Tree → Forest.Depth s.up rootWindow n x → windowLimit < n + depth →
    (movePublishedDescendants sys depth x s).isSome
  | 0, n, x, s, htree, hn, hroom => absurd (htree.depth_le hn) (by omega)
  | depth + 1, n, x, s, htree, hn, hroom => by
    unfold movePublishedDescendants
    suffices ∀ (l : List ℕ) (s : Server), (∀ i ∈ l, i < windowLimit) → s.Tree →
        Forest.Depth s.up rootWindow n x →
        (l.foldlM (fun s i => if (s.window i).used = 0 ∨ (s.window i).parent ≠ x then some s
          else movePublishedDescendants sys depth (s.window i).id
            (s.movePublishedWindow sys i)) s).isSome from
      this _ s (fun i hi => List.mem_range.1 hi) htree hn
    intro l
    induction l with
    | nil => exact fun _ _ _ _ => rfl
    | cons i l ih =>
      intro s hlt htree hn
      have hrest : ∀ j ∈ l, j < windowLimit := fun j hj => hlt j (List.mem_cons_of_mem _ hj)
      rw [List.foldlM_cons]
      split_ifs with hskip
      · exact ih s hrest htree hn
      · rw [not_or, not_not] at hskip
        have hmove := movePublishedWindow_quiet sys s i
        have hchild : Forest.Depth s.up rootWindow (n + 1) (s.window i).id :=
          .link (hskip.2 ▸ up_id htree.distinct (hlt i (List.mem_cons_self ..)) hskip.1) hn
        obtain ⟨u, hu⟩ := Option.isSome_iff_exists.1 (movePublishedDescendants_isSome sys depth
          (n + 1) (s.window i).id (s.movePublishedWindow sys i) (hmove.tree htree)
          (hmove.up ▸ hchild) (by omega))
        have hquiet := hmove.trans (movePublishedDescendants_quiet sys depth _ _ u hu)
        rw [hu]
        exact ih u hrest (hquiet.tree htree) (hquiet.up ▸ hn)

theorem walk_isSome (sys : Answers) (htree : s.Tree) (x : UInt32) :
    (movePublishedDescendants sys treeDepth x s).isSome := by
  by_cases hx : Forest.Rooted s.up rootWindow x
  · obtain ⟨n, hn⟩ := hx
    exact movePublishedDescendants_isSome sys treeDepth n x s htree hn (by simp [treeDepth]; omega)
  -- nothing hangs under a window that is not in the tree
  · have hnone : ∀ i, i < windowLimit → (s.window i).used = 0 ∨ (s.window i).parent ≠ x := by
      intro i hi
      by_contra hchild
      rw [not_or, not_not] at hchild
      obtain ⟨p, hup, hp⟩ := (htree.rooted i hi hchild.1).parent (htree.root i hi hchild.1)
      obtain rfl := Option.some.inj (hup.symm.trans (up_id htree.distinct hi hchild.1))
      exact hx (hchild.2 ▸ hp)
    unfold treeDepth movePublishedDescendants
    suffices ∀ l : List ℕ, (∀ i ∈ l, i < windowLimit) →
        (l.foldlM (fun s i => if (s.window i).used = 0 ∨ (s.window i).parent ≠ x then some s
          else movePublishedDescendants sys windowLimit (s.window i).id
            (s.movePublishedWindow sys i)) s) = some s by
      rw [this _ fun i hi => List.mem_range.1 hi]
      rfl
    intro l hl
    induction l with
    | nil => rfl
    | cons i l ih =>
      rw [List.foldlM_cons, if_pos (hnone i (hl i (List.mem_cons_self ..)))]
      exact ih fun j hj => hl j (List.mem_cons_of_mem _ hj)

/-! ## The records that share their bytes with reply handles -/

/-- The last two records are free. -/
structure Spare (s : Server) : Prop where
  fourteen : (s.window 14).used = 0
  fifteen : (s.window 15).used = 0

/-- The kernel's handles leave the last two records free. -/
structure Spares (sys : Answers) : Prop where
  first : ∀ calls, sys (.connectReply 1 :: calls) ≠ failure →
    handleByte (sys (.connectReply 1 :: calls)) 1 = 0
  eighth : ∀ calls, sys (.connectReply 8 :: calls) ≠ failure →
    handleByte (sys (.connectReply 8 :: calls)) 5 = 0

/-! ## What a turn keeps -/

/-- What the server keeps between two turns. -/
structure Settled (s : Server) : Prop where
  tree : s.Tree
  spare : s.Spare

theorem Spare.lt (h : s.Spare) (hi : i < windowLimit) (hused : (s.window i).used ≠ 0) :
    i < 14 := by
  have hfourteen : i ≠ 14 := fun heq => hused (heq ▸ h.fourteen)
  have hfifteen : i ≠ 15 := fun heq => hused (heq ▸ h.fifteen)
  simp only [windowLimit] at hi
  omega

theorem Settled.keep (h : s.Settled)
    (hplace : ∀ i, i < 14 → (t.window i).place = (s.window i).place) (hspare : t.Spare) :
    t.Settled := by
  refine ⟨h.tree.prune (fun i hi hused => hplace i (hspare.lt hi hused)) ?_, hspare⟩
  intro i _ hi _ hused _ _
  rw [(Window.place_eq (hplace i (h.spare.lt hi hused))).2.2.1]
  exact hused

theorem Settled.congr (h : s.Settled)
    (hplace : ∀ i, (t.window i).place = (s.window i).place) : t.Settled := by
  have hused := fun i => (Window.place_eq (hplace i)).2.2.1
  exact h.keep (fun i _ => hplace i)
    ⟨(hused 14).trans h.spare.fourteen, (hused 15).trans h.spare.fifteen⟩

theorem Settled.quiet (h : s.Settled) (hq : Quiet s t) : t.Settled :=
  h.congr fun i => by rw [hq.window]

def Severable (s : Server) (client : UInt32) : Prop := ∀ i j, i < windowLimit → j < windowLimit →
  (s.window i).used ≠ 0 → (s.window j).used ≠ 0 → (s.window j).parent = (s.window i).id →
  (s.window i).ownerClient = client → (s.window j).ownerClient = client

theorem Settled.release (h : s.Settled) (sys : Answers) {client : UInt32} (hclient : client ≠ 0)
    (hwindow : ∀ i, i < 14 → t.window i = s.window i)
    (hfourteen : client.toNat - 1 ≠ 0 → (t.window 14).used = 0)
    (hfifteen : client.toNat - 1 ≠ 7 → (t.window 15).used = 0)
    (hsever : s.Severable client) : (t.releaseClient sys client).Settled := by
  have hspare : (t.releaseClient sys client).Spare :=
    ⟨marks_fourteen.released (by omega) hclient hfourteen,
      marks_fifteen.released (by omega) hclient hfifteen⟩
  have hstays : ∀ i, i < windowLimit → ((t.releaseClient sys client).window i).used ≠ 0 →
      ¬((s.window i).used ≠ 0 ∧ (s.window i).ownerClient = client)
        ∧ ((t.releaseClient sys client).window i).place = (s.window i).place := by
    intro i hi hui
    have hplace := releaseClient_place sys hclient hwindow (hspare.lt hi hui)
    by_cases hgone : (s.window i).used ≠ 0 ∧ (s.window i).ownerClient = client
    · rw [if_pos hgone] at hplace
      exact absurd (congrArg Place.used hplace) hui
    · exact ⟨hgone, by rw [hplace, if_neg hgone]⟩
  refine ⟨h.tree.prune (fun i hi hui => (hstays i hi hui).2) ?_, hspare⟩
  intro i j hi hj hui huj hparent
  obtain ⟨hjgone, hjplace⟩ := hstays j hj huj
  have hsj : (s.window j).used ≠ 0 := by
    rw [← (Window.place_eq hjplace).2.2.1]
    exact huj
  have hgone : ¬((s.window i).used ≠ 0 ∧ (s.window i).ownerClient = client) := fun hgone =>
    hjgone ⟨hsj, hsever i j hi hj hui hsj hparent hgone.2⟩
  have hplace := releaseClient_place sys hclient hwindow (h.spare.lt hi hui)
  rw [if_neg hgone] at hplace
  rw [(Window.place_eq hplace).2.2.1]
  exact hui

/-- The client of the packet is one of the eight, cannot be reached, and holds up the windows of
no other. -/
def SendsOrderly (sys : Answers) (s : Server) : Prop :=
  s.outgoing.clientId ≠ 0 → s.outgoing.clientId ≤ maxClients →
    (s.deliver sys s.outgoing.clientId).1 = false → s.Severable s.outgoing.clientId

theorem Settled.send (h : s.Settled) (hsys : Spares sys)
    (hsend : s.SendsOrderly sys) : (s.sendOutgoing sys).Settled := by
  have hpath : Path sys (EditKind.linking s.outgoing.clientId
      (s.deliver sys s.outgoing.clientId).1) s (s.deliver sys s.outgoing.clientId).2 :=
    deliver_path s s.outgoing.clientId
  have hwindow := fun i (hi : i < 14) => linking_window hpath hi
  rcases sendOutgoing_cases sys s with heq | ⟨hclient, hslot, ⟨hsent, heq⟩ | ⟨hfail, heq⟩⟩ <;>
    rw [heq]
  · exact h
  · rw [hsent] at hpath
    have hnat : s.outgoing.clientId.toNat ≠ 0 := fun h => hclient (UInt32.toNat_inj.1 h)
    have hspare : (s.deliver sys s.outgoing.clientId).2.Spare := by
      refine ⟨marks_fourteen.delivered (fun calls hc hne => ?_) hpath h.spare.fourteen,
        marks_fifteen.delivered (fun calls hc hne => ?_) hpath h.spare.fifteen⟩
      · have hone : s.outgoing.clientId = 1 := UInt32.toNat_inj.1 (by simp; omega)
        rw [hone] at hne ⊢
        exact hsys.first calls hne
      · have height : s.outgoing.clientId = 8 := UInt32.toNat_inj.1 (by simp; omega)
        rw [height] at hne ⊢
        exact hsys.eighth calls hne
    exact h.keep (fun i hi => by rw [hwindow i hi]) hspare
  · exact h.release sys hclient hwindow (fun hne => marks_fourteen.elsewhere hpath hne
      h.spare.fourteen) (fun hne => marks_fifteen.elsewhere hpath hne h.spare.fifteen)
      (hsend hclient hslot hfail)

def Childless (s : Server) (id : UInt32) : Prop :=
  ∀ j, j < windowLimit → (s.window j).used ≠ 0 → (s.window j).parent ≠ id

theorem Settled.destroy (h : s.Settled) (sys : Answers)
    (hleaf : s.Childless (s.window i).id) : (s.destroyWindowState sys i).Settled := by
  have hwindow := destroyWindowState_window sys s i
  have hstays : ∀ j, ((s.destroyWindowState sys i).window j).used ≠ 0 →
      j ≠ i ∧ (s.destroyWindowState sys i).window j = s.window j := fun j hused => by
    rw [hwindow] at hused ⊢
    split_ifs at hused ⊢ with hj
    · exact absurd rfl hused
    · exact ⟨hj, rfl⟩
  have hfree : ∀ j, (s.window j).used = 0 → ((s.destroyWindowState sys i).window j).used = 0 :=
    fun j hj => by
      by_contra hused
      rw [(hstays j hused).2] at hused
      exact hused hj
  refine ⟨h.tree.prune (fun j _ hused => by rw [(hstays j hused).2]) ?_,
    hfree 14 h.spare.fourteen, hfree 15 h.spare.fifteen⟩
  intro j k hj hk huj huk hparent
  have hji : j ≠ i := by
    rintro rfl
    refine hleaf k hk ?_ hparent
    rw [← (hstays k huk).2]
    exact huk
  rw [hwindow, if_neg hji]
  exact huj

theorem Settled.close (h : s.Settled) (sys : Answers)
    (hi : s.findWindow id = some i) (hleaf : s.Childless id) : (s.nativeClose sys i).2.Settled := by
  have hclosed : ∀ t, Quiet s t → (t.destroyWindowState sys i).Settled := fun t hq => by
    refine (h.quiet hq).destroy sys ?_
    rw [hq.window, (findWindow_some hi).2.2]
    intro j hj hused
    rw [hq.window] at hused ⊢
    exact hleaf j hj hused
  exact hclosed _ (event_beside s _ _)

/-- The requests that do more than leave the windows where they are do it in order: a window is
created in a record that is not shared, is not hung below itself, is destroyed when none hangs under
it, and a client is released when no other's window hangs under one of its. -/
structure Proper (sys : Answers) (s : Server) : Prop where
  create : s.Asks Opcode.createWindow 32 → s.field32 8 = rootWindow →
    (s.allocateWindow (s.field32 4) s.incoming.clientId).isSome →
    ∃ i, i < 14 ∧ (s.window i).used = 0
  reparent : s.Asks Opcode.reparentWindow 16 → (s.findWindow (s.field32 4)).isSome →
    ¬Forest.Below s.up (s.field32 4) (s.field32 8)
  destroy : s.Asks Opcode.destroyWindow 8 → (s.findWindow (s.field32 4)).isSome →
    s.Childless (s.field32 4)
  kill : s.Asks Opcode.killClient 8 → s.Severable (s.resourceOwner (s.field32 4))
  focus : s.Asks Opcode.setInputFocus 12 → ∀ i, s.findWindow (s.field32 4) = some i →
    (s.window i).mapped ≠ 0 → s.payload 1 ≤ 2 → s.findWindow s.focusedWindow ≠ some i →
    (s.focusNotify (s.findWindow s.focusedWindow) 10).1 = true →
    SendsOrderly sys (s.focusNotify (s.findWindow s.focusedWindow) 10).2

theorem ownsId_ne_rootWindow {id client : UInt32} (hclient : client ≠ 0)
    (hslot : client ≤ maxClients) (h : ownsId id client = true) : id ≠ rootWindow := by
  rintro rfl
  have hbase : rootWindow &&& ~~~resourceMask = resourceBase client := of_decide_eq_true h
  have hzero : rootWindow &&& ~~~resourceMask = 0 := by decide
  have hnat : (client * (resourceMask + 1)).toNat = 0 := congrArg UInt32.toNat (hbase.symm.trans hzero)
  have hlt : client.toNat ≤ 8 := hslot
  have hpos : client.toNat ≠ 0 := fun h => hclient (UInt32.toNat_inj.1 h)
  rw [UInt32.toNat_mul, show (resourceMask + 1).toNat = 0x200000 from rfl] at hnat
  omega

theorem receive_clientId {a b : Assembly} {wire : Packet} (h : a.receive wire = .ok b) :
    b.incoming.clientId ≠ 0 ∧ b.incoming.clientId ≤ maxClients := by
  unfold Assembly.receive at h
  split_ifs at h with _ hslot hcontinues
  rw [not_or, UInt32.not_lt] at hslot
  obtain rfl := Except.ok.inj h
  have hclient : ((a.target wire).append wire).clientId = wire.clientId := by
    unfold Assembly.target
    split_ifs with hactive
    · simp only [hactive, Bool.true_and, Bool.not_eq_true', Bool.not_eq_false, Assembly.continues,
        Bool.and_eq_true, beq_iff_eq] at hcontinues
      exact hcontinues.1.1
    · rfl
  rw [show ({ active := hasMore wire.flags, incoming := (a.target wire).append wire :
    Assembly }).incoming.clientId = wire.clientId from hclient]
  exact hslot

theorem configureValue_place (bit : UInt16) (v : UInt32) (w : Window) :
    (configureValue bit v w).place = w.place := by
  unfold configureValue
  split_ifs <;> rfl

theorem applyConfigure_place (payload : ℕ → UInt8) (mask : UInt16) (w : Window) :
    (applyConfigure payload mask w).place = w.place := by
  suffices ∀ (l : List UInt16) (r : Window × ℕ), (l.foldl (fun r bit =>
      (configureValue bit (read32 payload r.2) r.1, r.2 + 4)) r).1.place = r.1.place from this _ _
  intro l
  induction l with
  | nil => exact fun _ => rfl
  | cons bit l ih => exact fun r => (ih _).trans (configureValue_place bit _ _)

theorem Settled.sets (h : s.Settled) (hset : Sets i w s t)
    (hplace : w.place = (s.window i).place) : t.Settled := by
  refine h.congr fun j => ?_
  rw [hset.window]
  split_ifs with hj
  · exact hj ▸ hplace
  · rfl

theorem Settled.create (h : s.Settled) (hproper : ∃ i, i < 14 ∧ (s.window i).used = 0)
    (hclient : s.incoming.clientId ≠ 0 ∧ s.incoming.clientId ≤ maxClients)
    (halloc : (s.allocateWindow id s.incoming.clientId).isSome)
    (hfree : Table.firstIndex windowLimit (fun i => (s.window i).used = 0) = some i)
    (hw : w.used = 0 ∨ (w.id = id ∧ w.parent = rootWindow)) (hset : Sets i w s t) :
    t.Settled := by
  obtain ⟨-, hused, hfirst⟩ := Table.firstIndex_eq_some.1 hfree
  have hi : i < 14 := by
    obtain ⟨k, hk, hkfree⟩ := hproper
    by_contra hge
    have := hfirst k (by omega)
    simp [hkfree] at this
  have hspare : t.Spare := ⟨by rw [hset.window, if_neg (by omega), h.spare.fourteen],
    by rw [hset.window, if_neg (by omega), h.spare.fifteen]⟩
  have hown : ownsId id s.incoming.clientId = true ∧ s.findWindow id = none := by
    unfold allocateWindow at halloc
    split_ifs at halloc with hbad
    · cases halloc
    · simpa using hbad
  rcases hw with hunused | ⟨hid, hparent⟩
  · refine ⟨h.tree.prune (fun j _ huj => ?_) (fun j k _ _ huj _ _ => ?_), hspare⟩
    · rw [hset.window] at huj ⊢
      split_ifs at huj ⊢ with hj
      · exact absurd hunused huj
      · rfl
    · rw [hset.window, if_neg]
      · exact huj
      · rintro rfl
        exact huj (of_decide_eq_true hused)
  · refine ⟨h.tree.graft hset.window (of_decide_eq_true hused) (hid ▸ hown.2) ?_ hparent, hspare⟩
    rw [hid]
    exact ownsId_ne_rootWindow hclient.1 hclient.2 hown.1

theorem Settled.reparent (h : s.Settled)
    (hi : s.findWindow id = some i) (hset : ∀ j, t.window j = if j = i then w else s.window j)
    (hid : w.id = (s.window i).id) (hused : w.used = (s.window i).used)
    (hparent : w.parent = rootWindow ∨ (s.findWindow w.parent).isSome)
    (hbelow : ¬Forest.Below s.up id w.parent) : t.Settled := by
  obtain ⟨hlt, hui, rfl⟩ := findWindow_some hi
  have hi14 := h.spare.lt hlt hui
  refine ⟨h.tree.hang hlt hui hset hid hused hparent hbelow, ?_, ?_⟩
  · rw [hset, if_neg (by omega), h.spare.fourteen]
  · rw [hset, if_neg (by omega), h.spare.fifteen]

theorem Settled.answer {r : Bool × Server} (h : r.2.Settled) (hsys : Spares sys)
    (hsend : r.1 = true → r.2.SendsOrderly sys) : (Server.answer sys r).Settled := by
  rcases answer_cases sys r with heq | ⟨hb, heq⟩ <;> rw [heq]
  · exact h
  · exact h.send hsys (hsend hb)

theorem Handled.settled (hsys : Spares sys) {r : Bool × Server}
    (h : Handled sys s (s.field32 4) r) (hs : s.Settled) (hproper : s.Proper sys)
    (hclient : s.incoming.clientId ≠ 0 ∧ s.incoming.clientId ≤ maxClients) : r.2.Settled := by
  cases h with
  | plain h => exact hs.congr (h.place sys)
  | create hask =>
    rcases createWindow_cases s (s.field32 4) with h | ⟨i, w, hlength, hroot, halloc, hfree, -, hw, h⟩
    · exact hs.quiet h
    · rw [hlength] at hask
      exact hs.create (hproper.create hask hroot halloc) hclient halloc hfree
        (hw.imp_right fun h => ⟨h.1, h.2.1⟩) h
  | elect hroot =>
    rcases selectInputRoot_cases s (s.field32 4) with h | ⟨mask, client, owner, h⟩
    · exact hs.quiet h
    · rw [h]
      exact hs.congr fun _ => rfl
  | grab _ _ =>
    exact hs.congr fun i => by rw [(passiveGrab_aside (P := fun _ => True) s _ _).window]
  | attach _ =>
    rcases attachSurface_cases sys s (s.field32 4) with h | ⟨-, i, -, h⟩
    · exact hs.quiet h
    · exact hs.sets h rfl
  | kill hask =>
    rcases killClient_cases sys s (s.field32 4) with h | ⟨howner, h⟩
    · exact hs.quiet h
    · rw [h]
      exact hs.release sys howner (fun _ _ => rfl) (fun _ => hs.spare.fourteen)
        (fun _ => hs.spare.fifteen) (hproper.kill hask)
  | focus hask =>
    rcases setInputFocus_cases sys s (s.findWindow (s.field32 4)) (s.field32 4)
      with h | ⟨i, hi, hmapped, hvalue, hother, h⟩
    · exact hs.quiet h
    · have hnotify : Quiet s (s.focusNotify (s.findWindow s.focusedWindow) 10).2 :=
        focusNotify_beside s _ _
      rw [h]
      exact (Settled.answer (hs.quiet hnotify) hsys
        (hproper.focus hask i hi hmapped hvalue hother)).quiet (focusOn_quiet sys _ i)
  | configure _ _ hr =>
    rcases configureWindow_cases sys hr with h | ⟨-, h⟩
    · exact hs.quiet h
    · exact hs.sets h (applyConfigure_place _ _ _)
  | reparent hask hi hr =>
    rcases reparentWindow_cases sys hr with h | ⟨hparent, h⟩
    · exact hs.quiet h
    · exact hs.reparent hi h.window rfl rfl hparent
        (hproper.reparent hask (Option.isSome_iff_exists.2 ⟨_, hi⟩))
  | destroy hask hi =>
    have hleaf := hproper.destroy hask (Option.isSome_iff_exists.2 ⟨_, hi⟩)
    exact hs.destroy sys ((findWindow_some hi).2.2 ▸ hleaf)

theorem parseRequest_isSome (hs : s.Settled) (hproper : s.Proper sys) :
    s.parseRequest sys ≠ none := by
  intro hnone
  obtain ⟨i, hi, hwalk⟩ := (parseRequest_accounts sys s).2 hnone
  have hends : ∀ t : Server, t.Settled → t.movePublished sys i ≠ none := fun t ht => by
    have hmove := movePublishedWindow_quiet sys t i
    exact Option.isSome_iff_ne_none.1 (walk_isSome sys (hmove.tree ht.tree) _)
  rcases hwalk with hconfigure | ⟨hask, hreparent⟩
  · unfold configureWindow at hconfigure
    dsimp only at hconfigure
    split_ifs at hconfigure
    refine hends _ ?_ (Option.map_eq_none_iff.1 hconfigure)
    exact hs.sets (Sets.of_quiet (.refl _)) (applyConfigure_place _ _ _)
  · unfold reparentWindow at hreparent
    dsimp only at hreparent
    split_ifs at hreparent with hbad
    refine hends _ ?_ (Option.map_eq_none_iff.1 hreparent)
    have hparent : s.field32 8 = rootWindow ∨ (s.findWindow (s.field32 8)).isSome := by
      by_cases hroot : s.field32 8 = rootWindow
      · exact .inl hroot
      · exact .inr (Option.isSome_iff_ne_none.2 fun h => hbad ⟨hroot, h⟩)
    exact hs.reparent hi (fun j => window_setWindow s i j _) rfl rfl hparent
      (hproper.reparent hask (Option.isSome_iff_exists.2 ⟨_, hi⟩))

end Server

namespace Process

/-- A turn is in order: a whole request does no more than leave the tree a tree, the compositor
closes no window that others hang under, and no client that cannot be reached holds up the windows
of others. -/
structure Orderly (sys : Answers) (p : Process) (wire : ℕ → UInt8) : Prop where
  request : ∀ s q, p = .running s → s.asked wire = some q → q.Proper sys
  close : ∀ s i, p = .running s → Server.isNative wire = true → (read16 wire 2).toNat = windowClose →
    s.findWindow (read32 wire 8) = some i → s.Childless (read32 wire 8)
  send : ∀ s r, p = .running s → s.handle sys wire = some (.ok r) → r.1 = true →
    r.2.SendsOrderly sys

def Standing : Process → Prop
  | running s => s.Settled
  | exited _ => True
  | hung => False

theorem step_standing (hsys : Server.Spares sys) {p : Process} {wire : ℕ → UInt8}
    (horder : p.Orderly sys wire) (hp : p.Standing) : (p.step sys wire).Standing := by
  rcases p with s | code | _
  · have hs : s.Settled := hp
    have hassembly : ∀ a, Server.Settled { s with assembly := a } := fun a =>
      hs.congr fun _ => rfl
    have hsend : ∀ r : Bool × Server, s.handle sys wire = some (.ok r) → r.2.Settled →
        (s.turn sys wire).Standing := fun r h hr => by
      have hrunning : s.turn sys wire = .running (Server.answer sys r) := by rw [Server.turn, h]
      rw [hrunning]
      exact Server.Settled.answer hr hsys fun hb => horder.send s r rfl h hb
    show (s.turn sys wire).Standing
    rcases Server.handle_cases sys s wire with ⟨hnative, h⟩ | ⟨code, h⟩ | ⟨a, b, t, -, h, hquiet⟩
      | ⟨a, hreceive, hask, h⟩
    · refine hsend _ h ?_
      rcases Server.nativeInput_cases sys s wire with hquiet | ⟨hclose, i, hi, heq⟩
      · exact hs.quiet hquiet
      · have hleaf := horder.close s i rfl hnative hclose hi
        exact heq ▸ hs.close sys hi hleaf
    · rw [Server.turn, h]
      trivial
    · exact hsend (b, t) h ((hassembly a).quiet hquiet)
    · have hproper := horder.request s _ rfl hask
      rcases hparse : Server.parseRequest { s with assembly := a } sys with _ | r
      · exact absurd hparse (Server.parseRequest_isSome (hassembly a) hproper)
      · rw [hparse] at h
        refine hsend r h ?_
        have hhandled := (Server.parseRequest_accounts sys { s with assembly := a }).1 r hparse
        exact hhandled.settled hsys (hassembly a) hproper (Server.receive_clientId hreceive)
  · exact hp
  · exact hp

theorem standing_start : (running {}).Standing := by
  have hfree : ∀ i, ((({} : Server)).window i).used = 0 := fun i => read8_eq _ _
  exact ⟨⟨fun i _ _ _ h => absurd (hfree i) h, fun i _ h => absurd (hfree i) h,
    fun i _ h => absurd (hfree i) h⟩, hfree 14, hfree 15⟩

/-- In a run whose turns are in order the windows in use stay a tree under the root, and the server
ends every walk over it. -/
theorem windows_form_tree (sys : Answers) (hsys : Server.Spares sys) (wires : List (ℕ → UInt8))
    (horder : Machine.Meets (step sys) (Orderly sys) (running {}) wires) :
    run sys (running {}) wires ≠ hung
      ∧ ∀ s, run sys (running {}) wires = running s →
        (∀ i, i < windowLimit → (s.window i).used ≠ 0 →
          Forest.Rooted s.up rootWindow (s.window i).id)
        ∧ ∀ id, (Server.movePublishedDescendants sys Server.treeDepth id s).isSome := by
  have hstanding : (run sys (running {}) wires).Standing :=
    Machine.run_inv_of_meets (step sys) (fun _ _ hp hok => step_standing hsys hok hp) wires _
      standing_start horder
  refine ⟨fun hhung => ?_, fun s hs => ?_⟩
  · rw [hhung] at hstanding
    exact hstanding
  · rw [hs] at hstanding
    exact ⟨hstanding.tree.rooted, Server.walk_isSome sys hstanding.tree⟩

def reparentRecord (client id parent : UInt32) : ℕ → UInt8 :=
  requestRecord client 16 (write32 (write32 (write16 (write8 (fun _ => 0) 0
    Opcode.reparentWindow) 2 4) 4 id) 8 parent)

def isHung : Process → Bool
  | hung => true
  | _ => false

theorem spares_failure : Server.Spares fun _ => failure :=
  ⟨fun _ h => absurd rfl h, fun _ h => absurd rfl h⟩

theorem eq_hung : ∀ {p : Process}, p.isHung = true → p = hung
  | hung, _ => rfl

theorem proper_of_createWindow {s : Server}
    (hop : s.payload 0 = Opcode.createWindow) (hfree : (s.window 0).used = 0) : s.Proper sys := by
  have hother : ∀ {opcode length}, opcode ≠ Opcode.createWindow → ¬s.Asks opcode length :=
    fun hne hask => hne (hask.opcode.symm.trans hop)
  exact ⟨fun _ _ _ => ⟨0, by decide, hfree⟩, fun h => absurd h (hother (by decide)),
    fun h => absurd h (hother (by decide)), fun h => absurd h (hother (by decide)),
    fun h => absurd h (hother (by decide))⟩

/-- A client's first window. -/
theorem windows_form_tree_create :
    run (fun _ => failure) (running {}) [createRecord 2 0x400001] ≠ hung
      ∧ ∀ s, run (fun _ => failure) (running {}) [createRecord 2 0x400001] = running s →
        (∀ i, i < windowLimit → (s.window i).used ≠ 0 →
          Forest.Rooted s.up rootWindow (s.window i).id)
        ∧ ∀ id, (Server.movePublishedDescendants (fun _ => failure) Server.treeDepth id s).isSome := by
  refine windows_form_tree _ spares_failure _ ⟨⟨?_, ?_, ?_⟩, trivial⟩
  · rintro s q ⟨rfl⟩ hq
    have hop : (({} : Server).asked (createRecord 2 0x400001)).map (fun q => q.payload 0)
        = some Opcode.createWindow := by decide +kernel
    rw [hq] at hop
    obtain ⟨a, -, rfl⟩ := Server.asked_eq hq
    exact proper_of_createWindow (Option.some.inj hop) (read8_eq _ _)
  · rintro s i ⟨rfl⟩ hnative
    cases hnative
  · rintro s r ⟨rfl⟩ hr hsends
    have hnone : (({} : Server).handle (fun _ => failure) (createRecord 2 0x400001)).map
        (fun r => r.toOption.map Prod.fst) = some (some false) := by decide +kernel
    rw [hr] at hnone
    have hfalse : r.1 = false := Option.some.inj (Option.some.inj hnone)
    rw [hfalse] at hsends
    cases hsends

/-- A window may be hung under itself, and the server never ends the walk over its descendants. -/
theorem windows_not_tree :
    ¬∀ (sys : Answers), Server.Spares sys → ∀ wires : List (ℕ → UInt8),
      run sys (running {}) wires ≠ hung
        ∧ ∀ s, run sys (running {}) wires = running s →
          (∀ i, i < windowLimit → (s.window i).used ≠ 0 →
            Forest.Rooted s.up rootWindow (s.window i).id)
          ∧ ∀ id, (Server.movePublishedDescendants sys Server.treeDepth id s).isSome := by
  intro h
  have hhung : (run (fun _ => failure) (running {}) [createRecord 2 0x400001,
      reparentRecord 2 0x400001 0x400001]).isHung = true := by decide +kernel
  exact (h _ spares_failure _).1 (eq_hung hhung)

end Process

end DemonX

end DemonOS
