import DemonOS.Ramfs

/-!
# The grammar of names

`valid_name` accepts an optional leading slash and one or more good segments with single slashes
between them, and nothing else (`validName_iff`). The scan by indices, as the source has it, runs
one past the end of the name; it is the scan that collects the characters of a segment
(`scanSegments_eq`).
-/

namespace DemonOS

namespace Ramfs

theorem validName_length {name : List UInt8} (h : validName name = true) :
    0 < name.length ∧ name.length ≤ nameMax := by
  unfold validName at h
  split at h
  · cases h
  · omega

def NameCharacter (c : UInt8) : Prop :=
  ('A'.toUInt8 ≤ c ∧ c ≤ 'Z'.toUInt8) ∨ ('a'.toUInt8 ≤ c ∧ c ≤ 'z'.toUInt8)
    ∨ ('0'.toUInt8 ≤ c ∧ c ≤ '9'.toUInt8) ∨ c = '.'.toUInt8 ∨ c = '_'.toUInt8 ∨ c = '-'.toUInt8

structure GoodSegment (segment : List UInt8) : Prop where
  nonempty : segment ≠ []
  characters : ∀ c ∈ segment, NameCharacter c
  not_dot : segment ≠ [dot]
  not_dots : segment ≠ [dot, dot]

def GoodPath (path : List UInt8) : Prop :=
  ∃ segments, segments ≠ [] ∧ (∀ segment ∈ segments, GoodSegment segment)
    ∧ path = [slash].intercalate segments

structure GoodName (name : List UInt8) : Prop where
  nonempty : 1 ≤ name.length
  short : name.length ≤ nameMax
  path : GoodPath name ∨ ∃ path, name = slash :: path ∧ GoodPath path

def scanSegments (name : List UInt8) (segmentStart cursor : ℕ) : Bool :=
  if cursor ≤ name.length then
    if cursor = name.length ∨ name[cursor]? = some slash then
      if !validSegment ((name.drop segmentStart).take (cursor - segmentStart)) then false
      else scanSegments name (cursor + 1) (cursor + 1)
    else scanSegments name segmentStart (cursor + 1)
  else true
termination_by name.length + 1 - cursor

def scanName (name : List UInt8) : Bool :=
  if name.length = 0 ∨ nameMax < name.length then false
  else
    let segmentStart := if name[0]? = some slash then 1 else 0
    if segmentStart = name.length then false else scanSegments name segmentStart segmentStart

/-- The scan over the characters does what the loop over the indices does. -/
theorem scanSegments_eq (name : List UInt8) (segmentStart cursor : ℕ)
    (hstart : segmentStart ≤ cursor) (hcursor : cursor ≤ name.length) :
    scanSegments name segmentStart cursor
      = validSegments ((name.drop segmentStart).take (cursor - segmentStart))
        (name.drop cursor) := by
  unfold scanSegments
  rw [if_pos hcursor]
  by_cases hend : cursor = name.length
  · rw [if_pos (.inl hend), List.drop_eq_nil_of_le hend.ge, validSegments]
    have hlast : scanSegments name (cursor + 1) (cursor + 1) = true := by
      unfold scanSegments
      rw [if_neg (by omega)]
    rw [hlast]
    cases validSegment ((name.drop segmentStart).take (cursor - segmentStart)) <;> rfl
  · have hlt : cursor < name.length := by omega
    rw [List.drop_eq_getElem_cons hlt, validSegments]
    by_cases hslash : name[cursor] = slash
    · rw [if_pos (.inr (by rw [List.getElem?_eq_getElem hlt, hslash])), if_pos hslash,
        scanSegments_eq name (cursor + 1) (cursor + 1) le_rfl hlt, Nat.sub_self, List.take_zero]
      cases validSegment ((name.drop segmentStart).take (cursor - segmentStart)) <;> rfl
    · have hnot : ¬(cursor = name.length ∨ name[cursor]? = some slash) := by
        rw [List.getElem?_eq_getElem hlt]
        simp [hend, hslash]
      have htake : (name.drop segmentStart).take (cursor + 1 - segmentStart)
          = (name.drop segmentStart).take (cursor - segmentStart) ++ [name[cursor]] := by
        rw [show cursor + 1 - segmentStart = cursor - segmentStart + 1 by omega,
          List.take_add_one, List.getElem?_drop, show segmentStart + (cursor - segmentStart) = cursor
          by omega, List.getElem?_eq_getElem hlt]
        rfl
      rw [if_neg hnot, if_neg hslash, scanSegments_eq name segmentStart (cursor + 1) (by omega) hlt,
        htake]
termination_by name.length - cursor

theorem scanName_eq (name : List UInt8) : scanName name = validName name := by
  unfold scanName validName
  by_cases hlength : name.length = 0 ∨ nameMax < name.length
  · rw [if_pos hlength, if_pos hlength]
  rw [if_neg hlength, if_neg hlength]
  rcases name with _ | ⟨c, cs⟩
  · exact absurd (.inl rfl) hlength
  dsimp only
  by_cases hc : c = slash
  · have hfirst : (c :: cs)[0]? = some slash := congrArg some hc
    have hhead : (c :: cs).head? = some slash := congrArg some hc
    rw [if_pos hfirst, if_pos hhead, List.tail_cons]
    rcases cs with _ | ⟨d, ds⟩
    · rfl
    · rw [if_neg (by simp), scanSegments_eq _ 1 1 le_rfl (by simp), Nat.sub_self, List.take_zero]
      rfl
  · have hfirst : (c :: cs)[0]? ≠ some slash := fun h => hc (Option.some.inj h)
    have hhead : (c :: cs).head? ≠ some slash := fun h => hc (Option.some.inj h)
    rw [if_neg hfirst, if_neg hhead, if_neg (by simp), scanSegments_eq _ 0 0 le_rfl (by simp)]
    rfl

/-! ## Segments -/

theorem validCharacter_iff (c : UInt8) : validCharacter c = true ↔ NameCharacter c := by
  unfold validCharacter NameCharacter
  simp only [Bool.or_eq_true, Bool.and_eq_true, decide_eq_true_eq, beq_iff_eq]
  show _ ↔ (0x41 ≤ c ∧ c ≤ 0x5A) ∨ (0x61 ≤ c ∧ c ≤ 0x7A) ∨ (0x30 ≤ c ∧ c ≤ 0x39) ∨ c = dot
    ∨ c = 0x5F ∨ c = 0x2D
  tauto

theorem validSegment_iff (segment : List UInt8) :
    validSegment segment = true ↔ GoodSegment segment := by
  unfold validSegment
  simp only [Bool.and_eq_true, bne_iff_ne, List.all_eq_true, validCharacter_iff,
    Bool.not_eq_true', List.isEmpty_eq_false_iff]
  exact ⟨fun h => ⟨h.1.1.1, h.2, h.1.1.2, h.1.2⟩, fun h => ⟨⟨⟨h.1, h.3⟩, h.4⟩, h.2⟩⟩

theorem GoodSegment.no_slash {segment : List UInt8} (h : GoodSegment segment) : slash ∉ segment :=
  fun hmem => by
    have := h.characters slash hmem
    revert this
    unfold NameCharacter
    decide

theorem validSegments_iff (rest : List UInt8) : ∀ segment : List UInt8, slash ∉ segment →
    (validSegments segment rest = true
      ↔ ∀ piece ∈ (segment ++ rest).splitOn slash, GoodSegment piece) := by
  induction rest with
  | nil =>
    intro segment hsegment
    rw [List.append_nil, List.splitOn_eq_singleton hsegment, validSegments, validSegment_iff]
    simp
  | cons c cs ih =>
    intro segment hsegment
    rw [validSegments]
    split_ifs with hc
    · subst hc
      rw [Bool.and_eq_true, ih [] List.not_mem_nil, List.nil_append,
        List.splitOn_append_cons_of_beq _ _ (beq_self_eq_true slash),
        List.splitOn_eq_singleton hsegment, validSegment_iff]
      simp
    · rw [ih (segment ++ [c]) (by simpa using ⟨hsegment, fun h => hc h.symm⟩), List.append_assoc]
      rfl

theorem goodPath_iff (path : List UInt8) :
    GoodPath path ↔ ∀ piece ∈ path.splitOn slash, GoodSegment piece := by
  constructor
  · rintro ⟨segments, hne, hgood, rfl⟩
    rw [List.splitOn_intercalate slash (fun segment hmem => (hgood segment hmem).no_slash) hne]
    exact hgood
  · intro h
    exact ⟨path.splitOn slash, List.splitOn_ne_nil _ _, h, (List.intercalate_splitOn slash).symm⟩

theorem not_goodPath_nil : ¬GoodPath [] := by
  rw [goodPath_iff, List.splitOn_nil]
  exact fun h => (h [] (List.mem_singleton_self _)).nonempty rfl

theorem not_goodPath_slash (path : List UInt8) : ¬GoodPath (slash :: path) := by
  rw [goodPath_iff]
  intro h
  refine (h [] ?_).nonempty rfl
  rw [← List.nil_append (slash :: path),
    List.splitOn_append_cons_of_beq _ _ (beq_self_eq_true slash), List.splitOn_nil]
  exact List.mem_cons_self

theorem goodPath_iff_validSegments (path : List UInt8) :
    (!path.isEmpty && validSegments [] path) = true ↔ GoodPath path := by
  rw [Bool.and_eq_true, validSegments_iff path [] List.not_mem_nil, List.nil_append, goodPath_iff]
  refine and_iff_right_of_imp fun h => ?_
  rcases path with _ | ⟨c, cs⟩
  · exact absurd ((goodPath_iff []).2 h) not_goodPath_nil
  · rfl

theorem GoodPath.apart {path : List UInt8} (h : GoodPath path) :
    path.getLast? ≠ some slash ∧ ¬[slash, slash] <:+: path := by
  rw [goodPath_iff] at h
  constructor
  · intro hlast
    obtain ⟨first, rfl⟩ := List.getLast?_eq_some_iff.1 hlast
    refine (h [] ?_).nonempty rfl
    rw [List.splitOn_append_cons_of_beq _ _ (beq_self_eq_true slash), List.splitOn_nil]
    exact List.mem_append_right _ (List.mem_singleton_self _)
  · rintro ⟨before, after, rfl⟩
    refine (h [] ?_).nonempty rfl
    rw [List.append_assoc, List.cons_append, List.cons_append, List.nil_append,
      List.splitOn_append_cons_of_beq _ _ (beq_self_eq_true slash),
      ← List.nil_append (slash :: after),
      List.splitOn_append_cons_of_beq _ _ (beq_self_eq_true slash), List.splitOn_nil]
    exact List.mem_append_right _ List.mem_cons_self

theorem validName_iff (name : List UInt8) : validName name = true ↔ GoodName name := by
  unfold validName
  by_cases hlength : name.length = 0 ∨ nameMax < name.length
  · rw [if_pos hlength]
    exact iff_of_false Bool.false_ne_true fun h => by
      have h1 := h.nonempty
      have h2 := h.short
      omega
  rw [if_neg hlength]
  dsimp only
  rw [goodPath_iff_validSegments]
  by_cases hhead : name.head? = some slash
  · obtain ⟨path, rfl⟩ := List.head?_eq_some_iff.1 hhead
    rw [if_pos hhead, List.tail_cons]
    refine ⟨fun h => ⟨by omega, by omega, .inr ⟨path, rfl, h⟩⟩, fun h => ?_⟩
    rcases h.path with h | ⟨path', heq, h⟩
    · exact absurd h (not_goodPath_slash path)
    · rwa [(List.cons.inj heq).2]
  · rw [if_neg hhead]
    refine ⟨fun h => ⟨by omega, by omega, .inl h⟩, fun h => ?_⟩
    rcases h.path with h | ⟨path, rfl, -⟩
    · exact h
    · exact absurd rfl hhead

/-- The names that are accepted are those of the grammar; none ends with a slash, and none has two
slashes in a row. -/
theorem name_grammar (name : List UInt8) :
    scanName name = validName name ∧ (validName name = true ↔ GoodName name)
      ∧ (validName name = true →
        name.getLast? ≠ some slash ∧ ¬[slash, slash] <:+: name) := by
  refine ⟨scanName_eq name, validName_iff name, fun h => ?_⟩
  rcases ((validName_iff name).1 h).path with hpath | ⟨path, rfl, hpath⟩
  · exact hpath.apart
  · obtain ⟨hlast, hdouble⟩ := hpath.apart
    rcases path with _ | ⟨c, cs⟩
    · exact absurd hpath not_goodPath_nil
    · refine ⟨by rwa [List.getLast?_cons_cons], fun hinfix => ?_⟩
      rcases List.infix_cons_iff.1 hinfix with hprefix | hinfix
      · have hc : c = slash := by
          have := List.cons_prefix_cons.1 hprefix
          exact (List.cons_prefix_cons.1 this.2).1.symm
        subst hc
        exact not_goodPath_slash cs hpath
      · exact hdouble hinfix

end Ramfs

end DemonOS
