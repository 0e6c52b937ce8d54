import DemonOS.Network.Receive
import Mathlib.Data.List.GetD

/-!
# What is published of a response

The search for the empty line leaves the index behind it in the same variable that says, three bytes
before the end, that there is none. So a response whose body has one to three bytes counts as one
without an empty line; any other publishes its body, as far as the buffer goes (`published_iff`).
-/

namespace DemonOS

namespace Network

def emptyLine : List UInt8 := [0x0D, 0x0A, 0x0D, 0x0A]

def behindHeaders : List UInt8 → Option (List UInt8)
  | [] => none
  | c :: rest => if emptyLine <+: c :: rest then some (rest.drop 3) else behindHeaders rest

variable {response : List UInt8}

theorem emptyLine_prefix_iff {i : ℕ} (h : i + 3 < response.length) :
    emptyLine <+: response.drop i
      ↔ response.getD i 0 = 0x0D ∧ response.getD (i + 1) 0 = 0x0A
        ∧ response.getD (i + 2) 0 = 0x0D ∧ response.getD (i + 3) 0 = 0x0A := by
  rw [emptyLine, List.drop_eq_getElem_cons (show i < response.length by omega),
    List.drop_eq_getElem_cons (show i + 1 < response.length by omega),
    List.drop_eq_getElem_cons (show i + 1 + 1 < response.length by omega),
    List.drop_eq_getElem_cons (show i + 1 + 1 + 1 < response.length by omega),
    List.getD_eq_getElem _ _ (show i < response.length by omega),
    List.getD_eq_getElem _ _ (show i + 1 < response.length by omega),
    List.getD_eq_getElem _ _ (show i + 2 < response.length by omega),
    List.getD_eq_getElem _ _ (show i + 3 < response.length by omega)]
  simp only [List.cons_prefix_cons, List.nil_prefix, and_true, eq_comm]

theorem behindHeaders_drop {i : ℕ} (h : i < response.length) :
    behindHeaders (response.drop i)
      = if emptyLine <+: response.drop i then some (response.drop (i + 4))
        else behindHeaders (response.drop (i + 1)) := by
  rw [List.drop_eq_getElem_cons h, behindHeaders, List.drop_drop]

theorem behindHeaders_short : ∀ {rest : List UInt8}, rest.length ≤ 3 → behindHeaders rest = none
  | [], _ => rfl
  | c :: rest, h => by
    have hlong : ¬emptyLine <+: c :: rest := fun hprefix => by
      have hle := hprefix.length_le
      simp only [emptyLine, List.length_cons, List.length_nil] at hle h
      omega
    rw [behindHeaders, if_neg hlong, behindHeaders_short (by simp at h; omega)]

variable (response) in
/-- What the search finds is where the body starts; or it ends within three bytes of the end. -/
theorem httpBody_eq : ∀ (rounds body : ℕ), response.length ≤ body + rounds →
    (∀ found, behindHeaders (response.drop body) = some found →
        httpBody response rounds body + found.length = response.length
          ∧ response.drop (httpBody response rounds body) = found)
      ∧ (behindHeaders (response.drop body) = none →
        response.length ≤ httpBody response rounds body + 3)
  | 0, body, h => by
    rw [List.drop_eq_nil_of_le (by omega)]
    exact ⟨fun found hfound => by simp [behindHeaders] at hfound, fun _ => by
      rw [httpBody]
      omega⟩
  | rounds + 1, body, h => by
    rw [httpBody]
    split_ifs with hin hhere
    · rw [behindHeaders_drop (by omega), if_pos ((emptyLine_prefix_iff hin).2 hhere)]
      refine ⟨fun found hfound => ?_, fun hnone => by cases hnone⟩
      obtain rfl := Option.some.inj hfound
      rw [List.length_drop]
      exact ⟨by omega, rfl⟩
    · rw [behindHeaders_drop (by omega), if_neg fun h => hhere ((emptyLine_prefix_iff hin).1 h)]
      exact httpBody_eq rounds (body + 1) (by omega)
    · rw [behindHeaders_short (by rw [List.length_drop]; omega)]
      exact ⟨fun found hfound => absurd hfound (by simp), fun _ => not_lt.1 hin⟩

/-- What the claim on a response is: its body is published, as far as the buffer goes; nothing is
only where it has none; and no header without an empty line. -/
structure Publishes (document response : List UInt8) : Prop where
  body : ∀ found, behindHeaders response = some found → document = found.take httpDocumentLimit
  empty : document = [] → behindHeaders response = none ∨ behindHeaders response = some []
  headers : behindHeaders response = none → document = []

theorem networkHttpResponse_empty {s : Network} (h : s.httpDocumentLength = 0) (capacity : ℕ) :
    (s.networkHttpResponse capacity).1 = [] := by
  rw [networkHttpResponse, if_pos (.inr h)]

theorem published_eq (s : Network) (response : List UInt8) {capacity : ℕ}
    (hcapacity : httpDocumentLimit ≤ capacity) :
    ((s.networkPublishHttpResponse response).networkHttpResponse capacity).1
      = ((behindHeaders response).map fun found =>
        if found.length ≤ 3 then [] else found.take httpDocumentLimit).getD [] := by
  obtain ⟨hfound, hnone⟩ := httpBody_eq response response.length 0 (by omega)
  rw [List.drop_zero] at hfound hnone
  rw [networkPublishHttpResponse]
  dsimp only
  rcases hbehind : behindHeaders response with _ | found
  · rw [if_pos (hnone hbehind)]
    exact networkHttpResponse_empty rfl capacity
  · obtain ⟨hlength, hdrop⟩ := hfound found hbehind
    rw [Option.map_some, Option.getD_some]
    split_ifs with hend hshort hshort
    · exact networkHttpResponse_empty rfl capacity
    · omega
    · omega
    · simp only [httpDocumentLimit] at hcapacity
      rw [networkHttpResponse, if_neg (by simp only [httpDocumentLimit]; omega)]
      dsimp only
      refine List.ext_getElem ?_ fun i hi hi' => ?_
      · simp only [List.length_map, List.length_range, List.length_take, httpDocumentLimit]
        omega
      · simp only [List.length_map, List.length_range, httpDocumentLimit] at hi
        rw [List.getElem_map, List.getElem_range, if_pos (by simp only [httpDocumentLimit]; omega),
          List.getElem_take]
        subst hdrop
        rw [List.getElem_drop, List.getD_eq_getElem]

/-- A response is published as it should be exactly if its body is not of one to three bytes. -/
theorem published_iff (s : Network) (response : List UInt8) {capacity : ℕ}
    (hcapacity : httpDocumentLimit ≤ capacity) :
    Publishes ((s.networkPublishHttpResponse response).networkHttpResponse capacity).1 response
      ↔ ∀ found, behindHeaders response = some found → found.length = 0 ∨ 3 < found.length := by
  rw [published_eq s response hcapacity]
  constructor
  · rintro ⟨hbody, -, -⟩ found hfound
    have hdocument := hbody found hfound
    rw [hfound, Option.map_some, Option.getD_some] at hdocument
    by_contra hshort
    rw [if_pos (by omega)] at hdocument
    have hlength := congrArg List.length hdocument
    simp only [List.length_nil, List.length_take, httpDocumentLimit] at hlength
    omega
  · intro hlong
    refine ⟨fun found hfound => ?_, fun hempty => ?_, fun hnone => by rw [hnone]; rfl⟩
    · rw [hfound, Option.map_some, Option.getD_some]
      rcases hlong found hfound with hzero | hlarge
      · rw [List.length_eq_zero_iff.1 hzero]
        rfl
      · rw [if_neg (by omega)]
    · rcases hbehind : behindHeaders response with _ | found
      · exact .inl rfl
      · rcases hlong found hbehind with hzero | hlarge
        · exact .inr (congrArg some (List.length_eq_zero_iff.1 hzero))
        · rw [hbehind, Option.map_some, Option.getD_some, if_neg (by omega)] at hempty
          have hlength := congrArg List.length hempty
          simp only [List.length_nil, List.length_take, httpDocumentLimit] at hlength
          omega

/-- An empty line and a body of four bytes. -/
theorem published_four :
    Publishes ((linked.networkPublishHttpResponse [13, 10, 13, 10, 1, 2, 3, 4]).networkHttpResponse
      1024).1 [13, 10, 13, 10, 1, 2, 3, 4] := by
  refine (published_iff linked [13, 10, 13, 10, 1, 2, 3, 4] (by decide)).2 fun found hfound => ?_
  have hbody : behindHeaders [13, 10, 13, 10, 1, 2, 3, 4] = some [1, 2, 3, 4] := by decide
  obtain rfl := Option.some.inj (hbody.symm.trans hfound)
  exact .inr (by decide)

/-- A body of one byte is not published. -/
theorem short_body_lost :
    ¬∀ (s : Network) (response : List UInt8) (capacity : ℕ), httpDocumentLimit ≤ capacity →
      Publishes ((s.networkPublishHttpResponse response).networkHttpResponse capacity).1
        response := by
  intro hall
  have hdocument := (hall linked [13, 10, 13, 10, 1] 1024 (by decide)).body [1] (by decide)
  exact absurd hdocument (by decide)

end Network

end DemonOS
