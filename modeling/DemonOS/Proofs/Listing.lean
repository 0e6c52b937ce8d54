import DemonOS.Ramfs
import Mathlib.Data.List.TakeWhile
import Mathlib.Data.Set.Card

/-!
# What a listing shows

The entries of a directory are told from the names alone: a file is directly inside it where its
path is the directory's followed by one component, and a component is a subdirectory where some
file's path goes on after it. `ramfs_list` suppresses a subdirectory whose name an earlier slot has
already produced, but does not ask whether that earlier entry was a subdirectory. So it lists every
directory exactly, in whatever order the slots stand, as long as no name is that of a file and of a
subdirectory at once (`listing_exact_iff`).
-/

namespace DemonOS

namespace Ramfs

variable {c dir name s : List UInt8} {fs : Ramfs} {i n : ℕ}

def pathOf (name : List UInt8) : List UInt8 :=
  if name.head? = some slash then name.tail else name

def Below (dir path rel : List UInt8) : Prop :=
  (dir = [] ∧ path = rel) ∨ (dir ≠ [] ∧ path = dir ++ slash :: rel)

/-- Slot `i` holds a file of `size` bytes directly inside the directory, under the name `c`. -/
structure FileIn (fs : Ramfs) (dir : List UInt8) (i : ℕ) (c : List UInt8) (size : ℕ) : Prop where
  lt : i < ramfsFiles
  used : (fs.table.slots i).used = true
  below : Below dir (pathOf (fs.table.slots i).name) c
  component : slash ∉ c
  size_eq : (fs.table.slots i).payload.length = size

def SubdirectoryIn (fs : Ramfs) (dir s : List UInt8) : Prop :=
  slash ∉ s ∧ ∃ i < ramfsFiles, (fs.table.slots i).used = true ∧
    ∃ rest, Below dir (pathOf (fs.table.slots i).name) (s ++ slash :: rest)

def Enumerates (fs : Ramfs) (directory : List UInt8) (entries : List (List UInt8 × ℕ × Bool)) :
    Prop :=
  ∀ i, fs.ramfsList directory i = entries[i]?

open Classical in
/-- One leaf for every file directly inside, one entry for every immediate subdirectory. -/
structure Exact (fs : Ramfs) (dir : List UInt8) (entries : List (List UInt8 × ℕ × Bool)) :
    Prop where
  leaves : ∀ c n, entries.count (c, n, false) = {i | fs.FileIn dir i c n}.ncard
  subdirectories : ∀ s, entries.count (s, 0, true) = if fs.SubdirectoryIn dir s then 1 else 0
  empty : ∀ e ∈ entries, e.2.2 = true → e.2.1 = 0

def ListsExactly (fs : Ramfs) (directory : List UInt8) : Prop :=
  ∃ entries, fs.Enumerates directory entries ∧ fs.Exact (pathOf directory) entries

def permuted (fs : Ramfs) (σ : Equiv.Perm ℕ) : Ramfs :=
  { fs with table := ⟨fun i => fs.table.slots (σ i)⟩ }

/-- The same entries come out whichever slots the files stand in. -/
def OrderFree (fs : Ramfs) (directory : List UInt8) : Prop :=
  ∀ σ : Equiv.Perm ℕ, (∀ i, σ i < ramfsFiles ↔ i < ramfsFiles) → ∀ entries entries',
    fs.Enumerates directory entries → (fs.permuted σ).Enumerates directory entries' →
      ∀ e, e ∈ entries' ↔ e ∈ entries

def ValidNames (fs : Ramfs) : Prop :=
  ∀ i < ramfsFiles, (fs.table.slots i).used = true → validName (fs.table.slots i).name = true

/-! ## Components -/

theorem validSegments_after {a b : List UInt8} {segment : List UInt8}
    (h : validSegments segment (a ++ slash :: b) = true) : validSegments [] b = true := by
  induction a generalizing segment with
  | nil =>
    rw [List.nil_append, validSegments, if_pos rfl, Bool.and_eq_true] at h
    exact h.2
  | cons c cs ih =>
    rw [List.cons_append, validSegments] at h
    split_ifs at h
    · rw [Bool.and_eq_true] at h
      exact ih h.2
    · exact ih h

theorem head_of_validSegments {rel : List UInt8} (h : validSegments [] rel = true) :
    ∃ c cs, rel = c :: cs ∧ c ≠ slash := by
  rcases rel with _ | ⟨c, cs⟩
  · cases h
  · refine ⟨c, cs, rfl, ?_⟩
    rintro rfl
    cases h

theorem validSegments_pathOf (h : validName name = true) :
    validSegments [] (pathOf name) = true := by
  unfold validName at h
  split_ifs at h <;> simp only [Bool.and_eq_true] at h <;> unfold pathOf <;> split_ifs <;> simp_all

theorem Below.valid {dir path rel : List UInt8} (h : Below dir path rel)
    (hpath : validSegments [] path = true) : validSegments [] rel = true := by
  rcases h with ⟨-, rfl⟩ | ⟨-, rfl⟩
  · exact hpath
  · exact validSegments_after hpath

theorem takeWhile_component {s rest : List UInt8} (hs : slash ∉ s) :
    (s ++ slash :: rest).takeWhile (· != slash) = s := by
  rw [List.takeWhile_append_of_pos fun a ha => by
    rw [bne_iff_ne]
    rintro rfl
    exact hs ha]
  simp

theorem takeWhile_leaf (hc : slash ∉ c) : c.takeWhile (· != slash) = c := by
  rw [List.takeWhile_eq_self_iff]
  intro a ha
  rw [bne_iff_ne]
  rintro rfl
  exact hc ha

theorem childOf_of_below {name dir rel : List UInt8} (h : Below dir (pathOf name) rel)
    (hne : rel ≠ []) :
    childOf name dir = some (rel.takeWhile (· != slash),
      (rel.takeWhile (· != slash)).length == rel.length) := by
  unfold childOf
  rw [← pathOf]
  rcases h with ⟨rfl, hp⟩ | ⟨hd, hp⟩
  · obtain ⟨c, cs, rfl⟩ := List.exists_cons_of_ne_nil hne
    simp [hp]
  · obtain ⟨c, cs, rfl⟩ := List.exists_cons_of_ne_nil hne
    have hde : dir.isEmpty = false := by simpa using hd
    simp [hp, hde]

theorem below_of_childOf {e : List UInt8 × Bool}
    (h : childOf name dir = some e) : ∃ rel, Below dir (pathOf name) rel ∧ rel ≠ [] := by
  unfold childOf at h
  rw [← pathOf] at h
  by_cases hd : dir = []
  · refine ⟨pathOf name, .inl ⟨hd, rfl⟩, fun hp => ?_⟩
    simp [hd, hp] at h
  · have hde : dir.isEmpty = false := by simpa using hd
    simp only [hde, Bool.false_eq_true, if_false] at h
    split_ifs at h with hlen hpre
    simp only [Bool.or_eq_true, bne_iff_ne, ne_eq, not_or, not_not] at hpre
    obtain ⟨hpre, hslash⟩ := hpre
    refine ⟨(pathOf name).drop (dir.length + 1), .inr ⟨hd, ?_⟩, fun hp => ?_⟩
    · obtain ⟨hlt, hget⟩ := List.getElem?_eq_some_iff.1 hslash
      conv_lhs => rw [← List.take_append_drop dir.length (pathOf name), hpre,
        List.drop_eq_getElem_cons hlt, hget]
    · rw [hp] at h
      cases h

theorem childOf_leaf (hname : validName name = true) :
    childOf name dir = some (c, true) ↔ Below dir (pathOf name) c ∧ slash ∉ c := by
  constructor
  · intro h
    obtain ⟨rel, hbelow, hne⟩ := below_of_childOf h
    rw [childOf_of_below hbelow hne, Option.some.injEq, Prod.mk.injEq, beq_iff_eq] at h
    have heq : rel.takeWhile (· != slash) = rel :=
      (List.takeWhile_prefix _).eq_of_length h.2
    rw [heq] at h
    obtain ⟨rfl, -⟩ := h
    refine ⟨hbelow, fun hmem => ?_⟩
    have := List.takeWhile_eq_self_iff.1 heq slash hmem
    simp at this
  · rintro ⟨hbelow, hc⟩
    obtain ⟨a, as, rfl, -⟩ := head_of_validSegments (hbelow.valid (validSegments_pathOf hname))
    rw [childOf_of_below hbelow (by simp), takeWhile_leaf hc]
    simp

theorem childOf_directory :
    childOf name dir = some (s, false)
      ↔ slash ∉ s ∧ ∃ rest, Below dir (pathOf name) (s ++ slash :: rest) := by
  constructor
  · intro h
    obtain ⟨rel, hbelow, hne⟩ := below_of_childOf h
    rw [childOf_of_below hbelow hne, Option.some.injEq, Prod.mk.injEq, beq_eq_false_iff_ne] at h
    obtain ⟨rfl, hlen⟩ := h
    have hsplit := List.takeWhile_append_dropWhile (p := (· != slash)) (l := rel)
    obtain ⟨a, as, hdrop⟩ := List.exists_cons_of_ne_nil (l := rel.dropWhile (· != slash)) (by
      intro hnil
      rw [hnil, List.append_nil] at hsplit
      exact hlen (by rw [hsplit]))
    have ha : a = slash := by
      have := List.head_dropWhile_not (p := (· != slash)) (l := rel) (by rw [hdrop]; simp)
      simpa [hdrop] using this
    refine ⟨fun hmem => ?_, as, ?_⟩
    · have := List.mem_takeWhile_imp hmem
      simp at this
    · rw [ha] at hdrop
      rw [← hdrop, hsplit]
      exact hbelow
  · rintro ⟨hs, rest, hbelow⟩
    rw [childOf_of_below hbelow (by simp), takeWhile_component hs]
    simp

/-! ## The entry of a slot -/

theorem listEntry_eq_some (hi : i < ramfsFiles)
    {e : List UInt8 × ℕ × Bool} :
    fs.listEntry dir (i + 1) = some e ↔ (fs.table.slots i).used = true ∧
      ∃ c leaf, childOf (fs.table.slots i).name dir = some (c, leaf)
        ∧ (leaf = false → ∀ k < i, (fs.table.slots k).used = true →
            ∀ leaf', childOf (fs.table.slots k).name dir ≠ some (c, leaf'))
        ∧ e = (c, if leaf then (fs.table.slots i).payload.length else 0, !leaf) := by
  have hslot : fs.table.slot (i + 1) = some i := BoundedTable.slot_eq_some.2 ⟨hi, rfl⟩
  have hearlier : ∀ c, ((List.range i).any fun k => (fs.table.slots k).used &&
      (childOf (fs.table.slots k).name dir).any fun x => x.1 == c) = true
        ↔ ∃ k < i, (fs.table.slots k).used = true
          ∧ ∃ leaf', childOf (fs.table.slots k).name dir = some (c, leaf') := by
    intro c
    simp only [List.any_eq_true, List.mem_range, Bool.and_eq_true, Option.any_eq_true, beq_iff_eq,
      Prod.exists]
    constructor
    · rintro ⟨k, hk, hu, c', leaf', hc, rfl⟩
      exact ⟨k, hk, hu, leaf', hc⟩
    · rintro ⟨k, hk, hu, leaf', hc⟩
      exact ⟨k, hk, hu, c, leaf', hc, rfl⟩
  unfold listEntry BoundedTable.payloadFor
  rw [hslot]
  simp only [Nat.add_sub_cancel]
  by_cases hu : (fs.table.slots i).used = true
  · rw [if_pos hu]
    rcases hc : childOf (fs.table.slots i).name dir with _ | ⟨c, leaf⟩
    · simp
    · dsimp only
      simp only [hu, true_and, Option.some.injEq, Prod.mk.injEq]
      have := hearlier c
      by_cases he : ((List.range i).any fun k => (fs.table.slots k).used &&
          (childOf (fs.table.slots k).name dir).any fun x => x.1 == c) = true
      · rw [he]
        obtain ⟨k, hk, huk, leaf', hck⟩ := this.1 he
        rcases leaf with _ | _
        · simp only [Bool.not_false, Bool.and_true, if_true, reduceCtorEq, false_iff]
          rintro ⟨c', leaf, ⟨rfl, rfl⟩, hfirst, -⟩
          exact hfirst rfl k hk huk leaf' hck
        · simp only [Bool.not_true, Bool.false_and, Bool.false_eq_true, if_false, if_true,
            Option.some.injEq]
          constructor
          · rintro rfl
            exact ⟨c, true, ⟨rfl, rfl⟩, by simp, rfl⟩
          · rintro ⟨c', leaf, ⟨rfl, rfl⟩, -, rfl⟩
            rfl
      · rw [Bool.not_eq_true] at he
        rw [he]
        simp only [Bool.and_false, Bool.false_eq_true, if_false, Option.some.injEq]
        constructor
        · rintro rfl
          refine ⟨c, leaf, ⟨rfl, rfl⟩, fun _ k hk huk leaf' hck => ?_, rfl⟩
          have := this.2 ⟨k, hk, huk, leaf', hck⟩
          rw [he] at this
          cases this
        · rintro ⟨c', leaf', ⟨rfl, rfl⟩, -, rfl⟩
          rfl
  · rw [if_neg hu]
    simp [hu]

def entries (fs : Ramfs) (dir : List UInt8) : List (List UInt8 × ℕ × Bool) :=
  (List.range ramfsFiles).filterMap fun i => fs.listEntry dir (i + 1)

theorem enumerates_iff {directory : List UInt8}
    {l : List (List UInt8 × ℕ × Bool)} :
    fs.Enumerates directory l ↔ l = fs.entries (pathOf directory) := by
  constructor
  · intro h
    exact List.ext_getElem? fun i => (h i).symm
  · rintro rfl i
    rfl

theorem mem_entries {e : List UInt8 × ℕ × Bool} :
    e ∈ fs.entries dir ↔ ∃ i < ramfsFiles, fs.listEntry dir (i + 1) = some e := by
  simp [entries]

theorem count_entries (fs : Ramfs) (dir : List UInt8) (e : List UInt8 × ℕ × Bool) :
    (fs.entries dir).count e
      = {i | i < ramfsFiles ∧ fs.listEntry dir (i + 1) = some e}.ncard := by
  have hset : {i | i < ramfsFiles ∧ fs.listEntry dir (i + 1) = some e}
      = ↑((Finset.range ramfsFiles).filter fun i => fs.listEntry dir (i + 1) = some e) := by
    simp
  rw [hset, Set.ncard_coe_finset, entries, List.count_filterMap, List.countP_eq_length_filter]
  exact congrArg List.length (List.filter_congr fun i _ => by rw [Bool.eq_iff_iff]; simp)

/-! ## Exactness -/

theorem listEntry_leaf (hvalid : fs.ValidNames) :
    (i < ramfsFiles ∧ fs.listEntry dir (i + 1) = some (c, n, false)) ↔ fs.FileIn dir i c n := by
  constructor
  · rintro ⟨hi, h⟩
    obtain ⟨hu, c', leaf, hc, -, he⟩ := (listEntry_eq_some hi).1 h
    obtain rfl : leaf = true := by simp_all
    obtain ⟨rfl, rfl⟩ := he
    obtain ⟨hbelow, hcomp⟩ := (childOf_leaf (hvalid i hi hu)).1 hc
    exact ⟨hi, hu, hbelow, hcomp, rfl⟩
  · rintro ⟨hi, hu, hbelow, hcomp, rfl⟩
    refine ⟨hi, (listEntry_eq_some hi).2 ⟨hu, c, true, ?_, by simp, by simp⟩⟩
    exact (childOf_leaf (hvalid i hi hu)).2 ⟨hbelow, hcomp⟩

theorem SubdirectoryIn.iff_childOf :
    fs.SubdirectoryIn dir s ↔ ∃ i < ramfsFiles, (fs.table.slots i).used = true
      ∧ childOf (fs.table.slots i).name dir = some (s, false) := by
  simp only [childOf_directory, SubdirectoryIn]
  tauto

theorem listEntry_directory (hi : i < ramfsFiles) :
    fs.listEntry dir (i + 1) = some (s, 0, true)
      ↔ (fs.table.slots i).used = true ∧ childOf (fs.table.slots i).name dir = some (s, false)
        ∧ ∀ k < i, (fs.table.slots k).used = true →
            ∀ leaf, childOf (fs.table.slots k).name dir ≠ some (s, leaf) := by
  rw [listEntry_eq_some hi]
  constructor
  · rintro ⟨hu, c, leaf, hc, hfirst, he⟩
    obtain rfl : leaf = false := by simp_all
    obtain ⟨rfl, -⟩ := he
    exact ⟨hu, hc, hfirst rfl⟩
  · rintro ⟨hu, hc, hfirst⟩
    exact ⟨hu, s, false, hc, fun _ => hfirst, by simp⟩

/-- Some name in the directory is that of a file and of a subdirectory. -/
def Ambiguous (fs : Ramfs) (dir : List UInt8) : Prop :=
  ∃ c, (∃ i n, fs.FileIn dir i c n) ∧ fs.SubdirectoryIn dir c

theorem count_directory (hvalid : fs.ValidNames)
    (hamb : ¬fs.Ambiguous dir) (hs : fs.SubdirectoryIn dir s) :
    (fs.entries dir).count (s, 0, true) = 1 := by
  rw [count_entries, Set.ncard_eq_one]
  have hex := SubdirectoryIn.iff_childOf.1 hs
  obtain ⟨hlt, hused, hchild⟩ := Nat.find_spec hex
  refine ⟨Nat.find hex, Set.eq_singleton_iff_unique_mem.2 ⟨⟨hlt, ?_⟩, ?_⟩⟩
  · refine (listEntry_directory hlt).2 ⟨hused, hchild, fun k hk hku leaf hc => ?_⟩
    rcases leaf with _ | _
    · exact Nat.find_min hex hk ⟨by omega, hku, hc⟩
    · have hin := (childOf_leaf (hvalid k (by omega) hku)).1 hc
      exact hamb ⟨s, ⟨k, _, ⟨by omega, hku, hin.1, hin.2, rfl⟩⟩, hs⟩
  · rintro i ⟨hi, h⟩
    obtain ⟨hu, hc, hfirst⟩ := (listEntry_directory hi).1 h
    have hle : Nat.find hex ≤ i := Nat.find_min' hex ⟨hi, hu, hc⟩
    rcases hle.lt_or_eq with hl | he
    · exact absurd hchild (hfirst _ hl hused false)
    · exact he.symm

theorem exact_of_not_ambiguous (hvalid : fs.ValidNames)
    (hamb : ¬fs.Ambiguous dir) : fs.Exact dir (fs.entries dir) := by
  refine ⟨fun c n => ?_, fun s => ?_, fun e he hdir => ?_⟩
  · rw [count_entries]
    exact congrArg Set.ncard (Set.ext fun i => listEntry_leaf hvalid)
  · split_ifs with hs
    · exact count_directory hvalid hamb hs
    · rw [List.count_eq_zero, mem_entries]
      rintro ⟨i, hi, h⟩
      obtain ⟨hu, hc, -⟩ := (listEntry_directory hi).1 h
      exact hs (SubdirectoryIn.iff_childOf.2 ⟨i, hi, hu, hc⟩)
  · obtain ⟨i, hi, h⟩ := mem_entries.1 he
    obtain ⟨-, c, leaf, -, -, rfl⟩ := (listEntry_eq_some hi).1 h
    simp_all

/-! ## The order of the slots -/

theorem Exact.mem_iff {l : List (List UInt8 × ℕ × Bool)}
    (h : fs.Exact dir l) (e : List UInt8 × ℕ × Bool) :
    e ∈ l ↔ (e.2.2 = false ∧ ∃ i, fs.FileIn dir i e.1 e.2.1)
      ∨ (e.2.2 = true ∧ e.2.1 = 0 ∧ fs.SubdirectoryIn dir e.1) := by
  obtain ⟨c, n, isDirectory⟩ := e
  rcases isDirectory with _ | _
  · have hfinite : {i | fs.FileIn dir i c n}.Finite :=
      (Set.finite_lt_nat ramfsFiles).subset fun i hi => hi.lt
    rw [← List.count_pos_iff, h.leaves, Set.ncard_pos hfinite]
    simp [Set.Nonempty]
  · simp only [Bool.true_eq_false, false_and, true_and, false_or]
    constructor
    · intro he
      obtain rfl : n = 0 := h.empty _ he rfl
      have := h.subdirectories c
      have hpos := List.count_pos_iff.2 he
      split_ifs at this with hs
      · exact ⟨rfl, hs⟩
      · omega
    · rintro ⟨rfl, hs⟩
      rw [← List.count_pos_iff, h.subdirectories, if_pos hs]
      exact Nat.one_pos

section Permuted

variable {fs : Ramfs} {σ : Equiv.Perm ℕ} (hσ : ∀ i, σ i < ramfsFiles ↔ i < ramfsFiles)

include hσ

theorem ValidNames.permuted (h : fs.ValidNames) : (fs.permuted σ).ValidNames :=
  fun i hi hu => h (σ i) ((hσ i).2 hi) hu

theorem fileIn_permuted :
    (fs.permuted σ).FileIn dir i c n ↔ fs.FileIn dir (σ i) c n :=
  ⟨fun h => ⟨(hσ i).2 h.lt, h.used, h.below, h.component, h.size_eq⟩,
    fun h => ⟨(hσ i).1 h.lt, h.used, h.below, h.component, h.size_eq⟩⟩

theorem subdirectoryIn_permuted :
    (fs.permuted σ).SubdirectoryIn dir s ↔ fs.SubdirectoryIn dir s := by
  refine and_congr_right fun _ => ⟨?_, ?_⟩
  · rintro ⟨i, hi, hu, hrest⟩
    exact ⟨σ i, (hσ i).2 hi, hu, hrest⟩
  · rintro ⟨i, hi, hu, hrest⟩
    refine ⟨σ.symm i, (hσ _).1 (by simpa using hi), ?_, ?_⟩
    · simpa [permuted] using hu
    · simpa [permuted] using hrest

theorem exists_fileIn_permuted :
    (∃ i, (fs.permuted σ).FileIn dir i c n) ↔ ∃ i, fs.FileIn dir i c n := by
  simp only [fileIn_permuted hσ]
  exact ⟨fun ⟨i, h⟩ => ⟨σ i, h⟩, fun ⟨i, h⟩ => ⟨σ.symm i, by simpa using h⟩⟩

theorem ambiguous_permuted :
    (fs.permuted σ).Ambiguous dir ↔ fs.Ambiguous dir := by
  unfold Ambiguous
  simp only [subdirectoryIn_permuted hσ]
  refine exists_congr fun c => and_congr_left fun _ => ?_
  have hcomm : ∀ fs' : Ramfs, (∃ i n, fs'.FileIn dir i c n) ↔ ∃ n i, fs'.FileIn dir i c n :=
    fun _ => exists_comm
  rw [hcomm, hcomm]
  exact exists_congr fun n => exists_fileIn_permuted hσ

end Permuted

theorem hidden_of_first (hvalid : fs.ValidNames)
    (hfile : fs.FileIn dir 0 c n) : (c, 0, true) ∉ fs.entries dir := by
  rw [mem_entries]
  rintro ⟨i, hi, h⟩
  obtain ⟨-, hc, hfirst⟩ := (listEntry_directory hi).1 h
  have hleaf := (childOf_leaf (hvalid 0 hfile.lt hfile.used)).2 ⟨hfile.below, hfile.component⟩
  rcases Nat.eq_zero_or_pos i with rfl | hpos
  · rw [hleaf] at hc
    cases hc
  · exact hfirst 0 hpos hfile.used true hleaf

/-- The listing of a directory is exact, and the same in every order of the slots, just when no
name in it is that of a file and of a subdirectory. -/
theorem listing_exact_iff (fs : Ramfs) (directory : List UInt8) (hvalid : fs.ValidNames) :
    (fs.ListsExactly directory ∧ fs.OrderFree directory) ↔ ¬fs.Ambiguous (pathOf directory) := by
  constructor
  · rintro ⟨⟨l, hl, hexact⟩, hfree⟩ ⟨c, ⟨i, n, hfile⟩, hs⟩
    -- the file is moved to the first slot, where it hides the subdirectory
    have hσ : ∀ k, Equiv.swap 0 i k < ramfsFiles ↔ k < ramfsFiles := by
      intro k
      have hi := hfile.lt
      rw [Equiv.swap_apply_def]
      split_ifs <;> omega
    have hmem : (c, 0, true) ∈ l := (hexact.mem_iff _).2 (.inr ⟨rfl, rfl, hs⟩)
    have hmoved := (hfree (Equiv.swap 0 i) hσ l _ hl (enumerates_iff.2 rfl) (c, 0, true)).2 hmem
    refine hidden_of_first (hvalid.permuted hσ) (n := n) ?_ hmoved
    rw [fileIn_permuted hσ, Equiv.swap_apply_left]
    exact hfile
  · intro hamb
    refine ⟨⟨_, enumerates_iff.2 rfl, exact_of_not_ambiguous hvalid hamb⟩, ?_⟩
    intro σ hσ l l' hl hl' e
    rw [enumerates_iff.1 hl, enumerates_iff.1 hl',
      (exact_of_not_ambiguous hvalid hamb).mem_iff, (exact_of_not_ambiguous (hvalid.permuted hσ)
        (by rwa [ambiguous_permuted hσ])).mem_iff]
    simp only [exists_fileIn_permuted hσ, subdirectoryIn_permuted hσ]

/-! ## A file and a directory of one name -/

def fileAndDirectory : Ramfs :=
  { table := ⟨fun i =>
      if i = 0 then { used := true, name := [0x61], payload := {} }
      else if i = 1 then { used := true, name := [0x61, slash, 0x62], payload := {} }
      else { payload := {} }⟩ }

/-- Two files `/a` and `b/c`, the first of three bytes. -/
def fileBesideDirectory : Ramfs :=
  { table := ⟨fun i =>
      if i = 0 then { used := true, name := [slash, 0x61], payload := { length := 3 } }
      else if i = 1 then { used := true, name := [0x62, slash, 0x63], payload := {} }
      else { payload := {} }⟩ }

theorem fileAndDirectory_valid : fileAndDirectory.ValidNames := by
  intro i _ hu
  by_cases h0 : i = 0
  · subst h0
    decide
  · by_cases h1 : i = 1
    · subst h1
      decide
    · simp [fileAndDirectory, h0, h1] at hu

theorem fileBesideDirectory_valid : fileBesideDirectory.ValidNames := by
  intro i _ hu
  by_cases h0 : i = 0
  · subst h0
    decide
  · by_cases h1 : i = 1
    · subst h1
      decide
    · simp [fileBesideDirectory, h0, h1] at hu

/-- The root lists the file and nothing else, though `a` is a subdirectory too. -/
theorem listing_hides_directory :
    fileAndDirectory.ValidNames ∧ fileAndDirectory.Enumerates [] [([0x61], 0, false)]
      ∧ fileAndDirectory.SubdirectoryIn [] [0x61]
      ∧ ¬(fileAndDirectory.ListsExactly [] ∧ fileAndDirectory.OrderFree []) := by
  have hsub : fileAndDirectory.SubdirectoryIn [] [0x61] :=
    ⟨by decide, 1, by decide, rfl, [0x62], .inl ⟨rfl, rfl⟩⟩
  have hlist : fileAndDirectory.Enumerates [] [([0x61], 0, false)] :=
    enumerates_iff.2 (by decide +kernel)
  refine ⟨fileAndDirectory_valid, hlist, hsub, ?_⟩
  rintro ⟨⟨l, hl, hexact⟩, -⟩
  have hmem : ([0x61], 0, true) ∈ l := (hexact.mem_iff _).2 (.inr ⟨rfl, rfl, hsub⟩)
  rw [enumerates_iff.1 hl, ← enumerates_iff.1 hlist] at hmem
  simp at hmem

theorem listing_exact_beside : fileBesideDirectory.ValidNames
    ∧ fileBesideDirectory.ListsExactly [] ∧ fileBesideDirectory.OrderFree [] := by
  refine ⟨fileBesideDirectory_valid,
    (listing_exact_iff fileBesideDirectory [] fileBesideDirectory_valid).2 ?_⟩
  rintro ⟨c, ⟨i, n, hfile⟩, hc, j, -, hu, rest, hbelow⟩
  have hi : i = 0 := by
    by_contra h0
    by_cases h1 : i = 1
    · subst h1
      rcases hfile.below with ⟨-, h⟩ | ⟨h, -⟩
      · exact hfile.component (by rw [← h]; decide)
      · exact h rfl
    · have := hfile.used
      simp [fileBesideDirectory, h0, h1] at this
  subst hi
  rcases hfile.below with ⟨-, rfl⟩ | ⟨h, -⟩
  · rcases hbelow with ⟨-, h⟩ | ⟨h, -⟩
    · by_cases h0 : j = 0
      · subst h0
        simp [fileBesideDirectory, pathOf] at h
      · by_cases h1 : j = 1
        · subst h1
          simp [fileBesideDirectory, pathOf, slash] at h
        · simp [fileBesideDirectory, h0, h1] at hu
    · exact h rfl
  · exact h rfl

end Ramfs

end DemonOS
