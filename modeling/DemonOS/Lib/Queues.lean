import Mathlib.Data.List.Chain
import Mathlib.Data.Nat.ModEq

/-!
# Queues

Queues of a bounded length, and queues whose elements merge.
-/

/-!
## Bounded queues

A ring of `n` slots holds `count` elements from the slot `read` on (`Ring.contents`): writing the
next slot appends an element and advancing `read` drops the first. A pipe is a queue of bounded
length with a place for one element that waits to get in; each of its steps hands out the elements
in the order they went in (`Pipe.Step.conserves`).
-/

namespace Ring

variable {α : Type*} {n read count : ℕ} {slots : ℕ → α}

/-- The elements of the ring, the oldest first. -/
def contents (n : ℕ) (slots : ℕ → α) (read count : ℕ) : List α :=
  (List.range count).map fun i => slots ((read + i) % n)

@[simp] theorem length_contents : (contents n slots read count).length = count := by
  simp [contents]

@[simp] theorem contents_zero : contents n slots read 0 = [] := rfl

theorem index_ne {i j : ℕ} (hij : i < j) (hj : j < n) : (read + i) % n ≠ (read + j) % n := by
  intro h
  have hmod : i % n = j % n := Nat.ModEq.add_left_cancel' read h
  rw [Nat.mod_eq_of_lt (Nat.lt_trans hij hj), Nat.mod_eq_of_lt hj] at hmod
  omega

theorem contents_succ :
    contents n slots read (count + 1)
      = contents n slots read count ++ [slots ((read + count) % n)] := by
  unfold contents
  rw [List.range_succ, List.map_append, List.map_singleton]

theorem contents_push (h : count < n) (a : α) :
    contents n (Function.update slots ((read + count) % n) a) read (count + 1)
      = contents n slots read count ++ [a] := by
  unfold contents
  rw [List.range_succ, List.map_append, List.map_singleton, Function.update_self]
  congr 1
  refine List.map_congr_left fun i hi => ?_
  rw [List.mem_range] at hi
  rw [Function.update_of_ne (index_ne hi h)]

theorem contents_pop (h : count ≠ 0) :
    contents n slots read count
      = slots (read % n) :: contents n slots ((read + 1) % n) (count - 1) := by
  obtain ⟨c, rfl⟩ := Nat.exists_eq_succ_of_ne_zero h
  unfold contents
  rw [Nat.succ_eq_add_one, List.range_succ_eq_map, List.map_cons, List.map_map, Nat.add_zero,
    Nat.add_sub_cancel]
  congr 1
  refine List.map_congr_left fun i _ => ?_
  simp only [Function.comp_apply]
  rw [Nat.mod_add_mod, Nat.add_assoc, Nat.add_comm 1 i]

end Ring

/-- A queue, and an element that waits for a place in it. -/
structure Pipe (α : Type*) where
  queue : List α := []
  parked : Option α := none

namespace Pipe

variable {α : Type*} {limit : ℕ} {p p' : Pipe α} {ins outs : List α}

/-- A step of a pipe whose queue holds at most `limit` elements, with the elements that went into
the queue and those that came out. -/
inductive Step (limit : ℕ) : Pipe α → List α → List α → Pipe α → Prop
  | idle (p : Pipe α) : Step limit p [] [] p
  | enqueue (queue : List α) (a : α) (room : queue.length < limit) :
    Step limit ⟨queue, none⟩ [a] [] ⟨queue ++ [a], none⟩
  | park (queue : List α) (a : α) (full : queue.length = limit) :
    Step limit ⟨queue, none⟩ [] [] ⟨queue, some a⟩
  | dequeue (a : α) (queue : List α) : Step limit ⟨a :: queue, none⟩ [] [a] ⟨queue, none⟩
  | refill (a : α) (queue : List α) (b : α) :
    Step limit ⟨a :: queue, some b⟩ [b] [a] ⟨queue ++ [b], none⟩
  | withdraw (queue : List α) (a : α) : Step limit ⟨queue, some a⟩ [] [] ⟨queue, none⟩

/-- What was in the queue and what went in is what came out and what is left. -/
theorem Step.conserves (h : Step limit p ins outs p') : p.queue ++ ins = outs ++ p'.queue := by
  cases h <;> simp

inductive Lives (limit : ℕ) : Option (Pipe α) → Option (Pipe α) → Prop
  | absent : Lives limit none none
  | opens : Lives limit none (some {})
  | steps {p p' : Pipe α} {ins outs : List α} (h : Step limit p ins outs p') :
    Lives limit (some p) (some p')
  | closes (p : Pipe α) : Lives limit (some p) none

end Pipe

/-!
## Queues that merge

Elements wait in batches, and a batch comes out as its last element. An element joins the last batch
where both it and that batch's last element are of the kind that merges; else it makes a batch of
its own, as far as there is room (`put`). A batch of more than one element is of that kind
throughout, and no two batches next to each other are (`Tidy`).
-/

namespace Batches

/-- The last element and the ones it replaces. -/
structure Batch (α : Type*) where
  merged : List α
  last : α

variable {α : Type*} (merges : α → Bool) (limit : ℕ)

/-- All elements of the batch, the oldest first. -/
def Batch.all (b : Batch α) : List α := b.merged ++ [b.last]

def elements (batches : List (Batch α)) : List α := batches.flatMap Batch.all

def put (waiting : List (Batch α)) (a : α) : Option (List (Batch α)) :=
  match waiting.getLast? with
  | none => if 0 < limit then some [⟨[], a⟩] else none
  | some b =>
    if merges a && merges b.last then some (waiting.dropLast ++ [⟨b.all, a⟩])
    else if waiting.length < limit then some (waiting ++ [⟨[], a⟩]) else none

structure Tidy (waiting : List (Batch α)) : Prop where
  kind : ∀ b ∈ waiting, b.merged = [] ∨ ∀ a ∈ b.all, merges a = true
  apart : waiting.IsChain fun b c => ¬(merges b.last = true ∧ merges c.last = true)

variable {merges limit} {waiting waiting' : List (Batch α)} {a : α}

theorem elements_append (first second : List (Batch α)) :
    elements (first ++ second) = elements first ++ elements second := List.flatMap_append

theorem elements_singleton (b : Batch α) : elements [b] = b.all := List.flatMap_singleton _ _

theorem put_concat (first : List (Batch α)) (b : Batch α) (a : α) :
    put merges limit (first ++ [b]) a
      = if merges a && merges b.last then some (first ++ [⟨b.all, a⟩])
        else if first.length + 1 < limit then some (first ++ [b] ++ [⟨[], a⟩]) else none := by
  unfold put
  rw [List.getLast?_concat]
  dsimp only
  rw [List.dropLast_concat, List.length_append, List.length_singleton]

theorem put_elements (h : put merges limit waiting a = some waiting') :
    elements waiting' = elements waiting ++ [a] := by
  rcases List.eq_nil_or_concat' waiting with rfl | ⟨first, b, rfl⟩
  · unfold put at h
    rw [List.getLast?_nil] at h
    dsimp only at h
    split_ifs at h
    obtain rfl := Option.some.inj h
    rfl
  · rw [put_concat] at h
    split_ifs at h
    · obtain rfl := Option.some.inj h
      rw [elements_append, elements_append, elements_singleton, elements_singleton,
        List.append_assoc]
      rfl
    · obtain rfl := Option.some.inj h
      rw [elements_append]
      rfl

theorem put_length (h : put merges limit waiting a = some waiting') (hle : waiting.length ≤ limit) :
    waiting'.length ≤ limit := by
  rcases List.eq_nil_or_concat' waiting with rfl | ⟨first, b, rfl⟩
  · unfold put at h
    rw [List.getLast?_nil] at h
    dsimp only at h
    split_ifs at h with hpos
    obtain rfl := Option.some.inj h
    exact hpos
  · rw [put_concat] at h
    rw [List.length_append, List.length_singleton] at hle
    split_ifs at h with _ hroom
    · obtain rfl := Option.some.inj h
      simpa using hle
    · obtain rfl := Option.some.inj h
      rw [List.length_append, List.length_append]
      exact Nat.succ_le_of_lt hroom

theorem Tidy.tail {b : Batch α} (h : Tidy merges (b :: waiting)) : Tidy merges waiting :=
  ⟨fun c hc => h.kind c (List.mem_cons_of_mem _ hc), h.apart.of_cons⟩

theorem Tidy.put (ht : Tidy merges waiting) (h : put merges limit waiting a = some waiting') :
    Tidy merges waiting' := by
  rcases List.eq_nil_or_concat' waiting with rfl | ⟨first, b, rfl⟩
  · unfold Batches.put at h
    rw [List.getLast?_nil] at h
    dsimp only at h
    split_ifs at h
    obtain rfl := Option.some.inj h
    exact ⟨fun c hc => .inl (by rw [List.mem_singleton.1 hc]), .singleton _⟩
  · rw [put_concat] at h
    split_ifs at h with hjoins hroom
    · obtain rfl := Option.some.inj h
      rw [Bool.and_eq_true] at hjoins
      refine ⟨fun c hc => ?_, ?_⟩
      · rcases List.mem_append.1 hc with hc | hc
        · exact ht.kind c (List.mem_append_left _ hc)
        · obtain rfl := List.mem_singleton.1 hc
          refine .inr fun x hx => ?_
          rcases List.mem_append.1 hx with hx | hx
          · rcases ht.kind b (List.mem_append_right _ (List.mem_singleton_self b)) with hb | hb
            · unfold Batch.all at hx
              rw [hb, List.nil_append] at hx
              rw [List.mem_singleton.1 hx]
              exact hjoins.2
            · exact hb x hx
          · rw [List.mem_singleton.1 hx]
            exact hjoins.1
      · have hapart := List.isChain_append.1 ht.apart
        refine List.isChain_append.2 ⟨hapart.1, .singleton _, fun x hx y hy => ?_⟩
        obtain rfl : _ = y := by simpa using hy
        exact fun hboth => hapart.2.2 x hx b (by simp) ⟨hboth.1, hjoins.2⟩
    · obtain rfl := Option.some.inj h
      refine ⟨fun c hc => ?_, ?_⟩
      · rcases List.mem_append.1 hc with hc | hc
        · exact ht.kind c hc
        · exact .inl (by rw [List.mem_singleton.1 hc])
      · refine List.isChain_append.2 ⟨ht.apart, .singleton _, fun x hx y hy => ?_⟩
        obtain rfl : b = x := by simpa using hx
        obtain rfl : _ = y := by simpa using hy
        rintro ⟨hx', hy'⟩
        exact hjoins (by rw [Bool.and_eq_true]; exact ⟨hy', hx'⟩)

end Batches
