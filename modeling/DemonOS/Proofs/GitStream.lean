import DemonOS.Lib.LittleEndian
import DemonOS.Proofs.Git

/-!
# What a commit's hash is made of

`git_commit` hashes the parent's hash, the message and each tracked file's name and bytes one behind
the other (`gitCommit_hash`), with nothing between them to say where a field ends. So the stream
tells two commits apart whose fields are as long (`CommitFields.eq_of_stream`), while a text may be
cut into fields of any lengths that add up to its own (`CommitFields.stream_recut`).
-/

namespace DemonOS

namespace Git

structure CommitFields where
  parentHash : UInt64
  message : List UInt8
  files : List (List UInt8 × List UInt8)

def fieldsOf (g : Git) (fs : Ramfs) (message : List UInt8) : CommitFields where
  parentHash := g.gitHeadHash
  message := message.take gitMessageMax
  files := (List.range g.trackedCount).map fun i =>
    (g.tracked i, (fileView fs (g.tracked i)).getD [])

namespace CommitFields

/-- The fields of variable length, in the order they are hashed in. -/
def fields (c : CommitFields) : List (List UInt8) :=
  c.message :: c.files.flatMap fun file => [file.1, file.2]

def stream (c : CommitFields) : List UInt8 := wordBytes c.parentHash ++ c.fields.flatten

def layout (c : CommitFields) : List ℕ := c.fields.map List.length

end CommitFields

/-! ## The hash -/

theorem hashBytes_append (hash : UInt64) (data data' : List UInt8) :
    hashBytes hash (data ++ data') = hashBytes (hashBytes hash data) data' :=
  List.foldl_append

theorem copyFiles_hash {fs : Ramfs} {hash' : UInt64} {tracked : ℕ → List UInt8} :
    ∀ (rest i : ℕ) (hash : UInt64) (g g' : Git), g.tracked = tracked →
      copyFiles fs rest i hash g = (some hash', g') →
      hash' = hashBytes hash ((List.range' i rest).flatMap fun i =>
        tracked i ++ (fileView fs (tracked i)).getD [])
  | 0, i, hash, g, g', _, h => by
    obtain ⟨rfl, -⟩ : hash = hash' ∧ g = g' := by simpa [copyFiles] using h
    rfl
  | rest + 1, i, hash, g, g', htracked, h => by
    rw [copyFiles] at h
    rcases hview : fileView fs (g.tracked i) with _ | data
    · rw [hview] at h
      cases h
    · rw [hview] at h
      have hrest := copyFiles_hash rest (i + 1) _ (g.putSnapshot i data) g' htracked h
      rw [hrest, List.range'_succ, List.flatMap_cons, hashBytes_append, hashBytes_append,
        ← htracked, hview, Option.getD_some]

theorem flatten_fields (message : List UInt8) (tracked : ℕ → List UInt8 × List UInt8)
    (indices : List ℕ) :
    (message :: (indices.map tracked).flatMap fun file => [file.1, file.2]).flatten
      = message ++ indices.flatMap fun i => (tracked i).1 ++ (tracked i).2 := by
  rw [List.flatten_cons, List.flatMap_map]
  congr 1
  induction indices with
  | nil => rfl
  | cons i indices ih => simp [List.flatMap_cons, ih]

/-- The hash is the hash of the stream. -/
theorem gitCommit_hash {g g' : Git} {fs : Ramfs} {message : List UInt8} {hash : UInt64}
    (h : g.gitCommit fs message = (some hash, g')) :
    hash = hashBytes 1469598103934665603 (g.fieldsOf fs message).stream := by
  rw [gitCommit] at h
  split_ifs at h with hnone hfull
  · cases h
  · cases h
  rcases htotal : g.totalBytes fs g.trackedCount 0 0 with _ | total
  · rw [htotal] at h
    cases h
  rw [htotal] at h
  dsimp only at h
  split_ifs at h
  · cases h
  generalize hcopy : copyFiles fs g.trackedCount 0 _ _ = copied at h
  obtain ⟨copiedHash, t⟩ := copied
  rcases copiedHash with _ | hash'
  · cases h
  obtain ⟨rfl, -⟩ : hash' = hash ∧ _ := by simpa using h
  rw [copyFiles_hash g.trackedCount 0 _ _ t rfl hcopy, ← hashBytes_append, ← hashBytes_append,
    CommitFields.stream, CommitFields.fields, fieldsOf]
  dsimp only
  rw [flatten_fields, List.range_eq_range']

/-! ## Fields of the same length -/

theorem length_wordBytes (word : UInt64) : (wordBytes word).length = 8 := by simp [wordBytes]

theorem load_wordBytes (word : UInt64) :
    LittleEndian.load (fun i => (wordBytes word).getD i 0) 0 8 = word.toNat := by
  have hlt : word.toNat < 256 ^ 8 := word.toNat_lt
  rw [← LittleEndian.load_store_of_lt (fun _ => 0) (a := 0) hlt]
  refine LittleEndian.load_congr fun b _ hb => ?_
  rw [LittleEndian.store, if_pos ⟨Nat.zero_le b, hb⟩, wordBytes, List.getD_eq_getElem?_getD,
    List.getElem?_map, List.getElem?_range (by omega), Option.map_some, Option.getD_some, pow_mul,
    Nat.sub_zero]
  norm_num

theorem wordBytes_inj {word word' : UInt64} (h : wordBytes word = wordBytes word') :
    word = word' := by
  rw [← UInt64.toNat_inj, ← load_wordBytes, ← load_wordBytes, h]

namespace CommitFields

theorem length_stream (c : CommitFields) : c.stream.length = 8 + c.layout.sum := by
  rw [stream, List.length_append, length_wordBytes, List.length_flatten, layout]

theorem files_inj : ∀ {files files' : List (List UInt8 × List UInt8)},
    (files.flatMap fun file => [file.1, file.2]) = (files'.flatMap fun file => [file.1, file.2]) →
      files = files'
  | [], [], _ => rfl
  | [], _ :: _, h => by simp at h
  | _ :: _, [], h => by simp at h
  | file :: files, file' :: files', h => by
    simp only [List.flatMap_cons, List.cons_append, List.nil_append, List.cons.injEq] at h
    rw [Prod.ext h.1 h.2.1, files_inj h.2.2]

/-- Where the fields are as long, the stream tells which they are. -/
theorem eq_of_stream {c c' : CommitFields} (hlayout : c.layout = c'.layout)
    (hstream : c.stream = c'.stream) : c = c' := by
  obtain ⟨hparent, hflat⟩ := List.append_inj hstream (by rw [length_wordBytes, length_wordBytes])
  have hfields : c.fields = c'.fields := List.eq_iff_flatten_eq.2 ⟨hflat, hlayout⟩
  obtain ⟨hmessage, hfiles⟩ := List.cons.inj hfields
  obtain ⟨parent, message, files⟩ := c
  obtain ⟨parent', message', files'⟩ := c'
  obtain rfl := wordBytes_inj hparent
  obtain rfl : message = message' := hmessage
  obtain rfl := files_inj hfiles
  rfl

/-! ## The same bytes cut in another way -/

def window (text : ℕ → UInt8) (o n : ℕ) : List UInt8 := (List.range' o n).map text

def cutFiles (text : ℕ → UInt8) :
    ℕ → List (List UInt8 × List UInt8) → List (List UInt8 × List UInt8)
  | _, [] => []
  | o, file :: files =>
    (window text o file.1.length, window text (o + file.1.length) file.2.length)
      :: cutFiles text (o + file.1.length + file.2.length) files

def recut (c : CommitFields) (text : ℕ → UInt8) : CommitFields where
  parentHash := 0
  message := window text 0 c.message.length
  files := cutFiles text c.message.length c.files

def nameStarts : ℕ → List (List UInt8 × List UInt8) → List ℕ
  | _, [] => []
  | o, file :: files => o :: nameStarts (o + file.1.length + file.2.length) files

variable {text : ℕ → UInt8}

@[simp] theorem length_window (text : ℕ → UInt8) (o n : ℕ) : (window text o n).length = n := by
  simp [window]

theorem window_append (text : ℕ → UInt8) (o m n : ℕ) :
    window text o m ++ window text (o + m) n = window text o (m + n) := by
  rw [window, window, window, ← List.map_append, List.range'_append_1]

def widths (files : List (List UInt8 × List UInt8)) : List ℕ :=
  (files.flatMap fun file => [file.1, file.2]).map List.length

@[simp] theorem widths_cons (file : List UInt8 × List UInt8)
    (files : List (List UInt8 × List UInt8)) :
    widths (file :: files) = file.1.length :: file.2.length :: widths files := rfl

theorem layout_eq (c : CommitFields) : c.layout = c.message.length :: widths c.files := rfl

@[simp] theorem widths_cutFiles (text : ℕ → UInt8) :
    ∀ (o : ℕ) (files : List (List UInt8 × List UInt8)), widths (cutFiles text o files) = widths files
  | _, [] => rfl
  | o, file :: files => by simp [cutFiles, widths_cutFiles]

theorem layout_recut (c : CommitFields) (text : ℕ → UInt8) : (c.recut text).layout = c.layout := by
  simp [layout_eq, recut]

theorem flatten_cutFiles (text : ℕ → UInt8) :
    ∀ (o : ℕ) (files : List (List UInt8 × List UInt8)),
      ((cutFiles text o files).flatMap fun file => [file.1, file.2]).flatten
        = window text o (widths files).sum
  | _, [] => rfl
  | o, file :: files => by
    simp only [cutFiles, List.flatMap_cons, List.cons_append, List.nil_append, List.flatten_cons,
      flatten_cutFiles, window_append, widths_cons, List.sum_cons]

/-- Wherever it is cut, the stream is the text. -/
theorem stream_recut (c : CommitFields) (text : ℕ → UInt8) :
    (c.recut text).stream = wordBytes 0 ++ window text 0 c.layout.sum := by
  rw [stream, fields, List.flatten_cons, layout_eq, List.sum_cons, ← window_append, recut,
    flatten_cutFiles, Nat.zero_add]

end CommitFields

end Git

end DemonOS
