import DemonOS.Proofs.Files
import DemonOS.Proofs.GitStream
import DemonOS.Proofs.Names

/-!
# Which commits can be made

A run tracks at most eight names of at most 63 bytes each, and a commit is only made where the files
fit the arena (`Made.possible`). Conversely any first commit within these bounds whose names are
letters and differ can be made (`made_of_possible`): its files are there, each is added, and nothing
is left for `git_commit` to refuse.
-/

namespace DemonOS

namespace Git

def Made (c : CommitFields) : Prop :=
  ∃ (g : Git) (files : Ramfs) (events : List GitEvent) (message : List UInt8),
    let r := Machine.run Repository.step ⟨g.gitRepositoryInit, files, []⟩ events
    (r.git.gitCommit r.files message).1 ≠ none ∧ r.git.fieldsOf r.files message = c

structure Possible (c : CommitFields) : Prop where
  message : c.message.length ≤ gitMessageMax
  some : c.files ≠ []
  few : c.files.length ≤ gitMaxTracked
  names : ∀ file ∈ c.files, 0 < file.1.length ∧ file.1.length ≤ gitNameMax
  room : (c.files.map fun file => file.2.length).sum ≤ gitSnapshotArenaBytes

/-! ## Every commit is within the bounds -/

/-- The names that are tracked. -/
structure Tracks (g : Git) : Prop where
  few : g.trackedCount ≤ gitMaxTracked
  names : ∀ i, i < g.trackedCount →
    0 < (g.tracked i).length ∧ (g.tracked i).length ≤ gitNameMax

theorem Tracks.add {g : Git} (h : g.Tracks) (fs : Ramfs) (name : List UInt8) :
    (g.gitAdd fs name).2.Tracks := by
  rw [gitAdd]
  rcases fs.ramfsOpen name false with _ | opened
  · split_ifs <;> exact h
  split_ifs with hname htracked hfull
  · exact h
  · exact h
  · exact h
  · refine ⟨not_le.1 hfull, fun i hi => ?_⟩
    rcases Nat.lt_succ_iff_lt_or_eq.1 hi with hlt | rfl
    · dsimp only
      rw [Function.update_of_ne (by omega)]
      exact h.names i hlt
    · dsimp only
      rw [Function.update_self]
      omega

theorem Repository.step_tracks (r : Repository) (event : GitEvent) (h : r.git.Tracks) :
    (r.step event).git.Tracks := by
  rcases event with name | message | files
  · exact h.add r.files name
  · rcases gitCommit_cases r.git r.files message with ⟨-, hnone⟩ | ⟨-, hash, g', hsome, hg⟩
    · simp only [step, hnone]
      exact h
    · simp only [step, hsome]
      exact ⟨hg.trackedCount ▸ h.few, hg.tracked ▸ hg.trackedCount ▸ h.names⟩
  · exact h

theorem totalBytes_eq {g : Git} {fs : Ramfs} : ∀ {rest i total total' : ℕ},
    g.totalBytes fs rest i total = some total' →
      total' = total
        + ((List.range' i rest).map fun i => ((fileView fs (g.tracked i)).getD []).length).sum
  | 0, i, total, total', h => by
    obtain rfl : total = total' := by simpa [totalBytes] using h
    rfl
  | rest + 1, i, total, total', h => by
    rw [totalBytes] at h
    rcases hsize : fileSize fs (g.tracked i) with _ | length
    · rw [hsize] at h
      cases h
    · rw [hsize] at h
      obtain ⟨data, hdata, rfl⟩ := fileView_of_fileSize hsize
      rw [totalBytes_eq h, List.range'_succ, List.map_cons, List.sum_cons, hdata, Option.getD_some,
        Nat.add_assoc]

theorem Made.possible {c : CommitFields} (h : Made c) : Possible c := by
  obtain ⟨g, files, events, message, hmade, rfl⟩ := h
  set r := Machine.run Repository.step ⟨g.gitRepositoryInit, files, []⟩ events with hr
  obtain ⟨⟨hholds, -⟩, htracks⟩ :
      (r.git.Holds r.history ∧ Linked r.history) ∧ r.git.Tracks := by
    have hfresh : g.gitRepositoryInit.Holds [] := ⟨rfl, Nat.zero_le _, by simp⟩
    have hnothing : g.gitRepositoryInit.Tracks :=
      ⟨Nat.zero_le _, fun i hi => absurd hi (Nat.not_lt_zero i)⟩
    exact Machine.run_inv
      (I := fun r => (r.git.Holds r.history ∧ Linked r.history) ∧ r.git.Tracks)
      Repository.step (fun r event h => ⟨r.step_holds event h.1, r.step_tracks event h.2⟩)
      events ⟨g.gitRepositoryInit, files, []⟩ ⟨⟨hfresh, by simp [Linked]⟩, hnothing⟩
  have hgo : ¬r.git.Refuses r.files := by
    rcases gitCommit_cases r.git r.files message with ⟨-, hnone⟩ | ⟨hgo, -⟩
    · exact absurd (by rw [hnone]) hmade
    · exact hgo
  refine ⟨List.length_take_le .., ?_, ?_, fun file hfile => ?_, ?_⟩
  · intro hnil
    have hlength := congrArg List.length hnil
    rw [fieldsOf, List.length_map, List.length_range] at hlength
    exact hgo (.inr (.inl hlength))
  · rw [fieldsOf, List.length_map, List.length_range]
    exact htracks.few
  · obtain ⟨i, hi, rfl⟩ := List.mem_map.1 hfile
    exact htracks.names i (List.mem_range.1 hi)
  · rcases htotal : r.git.totalBytes r.files r.git.trackedCount 0 0 with _ | total
    · exact absurd (.inr (.inr (.inr (.inl htotal)))) hgo
    have hfits : total ≤ (2 ^ 64 + gitSnapshotArenaBytes - r.git.snapshotUsed) % 2 ^ 64 :=
      not_lt.1 fun hlt => hgo (.inr (.inr (.inr (.inr ⟨total, htotal, hlt⟩))))
    have hsum := totalBytes_eq htotal
    have hused := hholds.used
    rw [fieldsOf, List.map_map, List.range_eq_range']
    simp only [gitSnapshotArenaBytes] at hfits hused ⊢
    rw [Nat.zero_add] at hsum
    have hmod : (2 ^ 64 + 8192 - r.git.snapshotUsed) % 2 ^ 64 ≤ 8192 := by omega
    exact hsum ▸ hfits.trans hmod

/-! ## Files that are there -/

def filesAt (files : List (List UInt8 × List UInt8)) : Ramfs :=
  { table := ⟨fun i =>
      match files[i]? with
      | none => { payload := {} }
      | some file =>
        { used := true, name := file.1
          payload := { externalData := some file.2, length := file.2.length } }⟩ }

theorem filesAt_slot {files : List (List UInt8 × List UInt8)} {i : ℕ}
    {file : List UInt8 × List UInt8} (h : files[i]? = some file) :
    (filesAt files).table.slots i = { used := true, name := file.1
                                      payload := { externalData := some file.2
                                                   length := file.2.length } } := by
  simp only [filesAt, h]

theorem fileView_filesAt {files : List (List UInt8 × List UInt8)} {i : ℕ}
    {file : List UInt8 × List UInt8} (hi : files[i]? = some file)
    (hfew : files.length ≤ ramfsFiles) (hnodup : (files.map Prod.fst).Nodup)
    (hname : Ramfs.validName file.1 = true) :
    (filesAt files).ramfsOpen file.1 false = some (i + 1, filesAt files)
      ∧ fileView (filesAt files) file.1 = some file.2 := by
  have hlt : i < files.length := (List.getElem?_eq_some_iff.1 hi).1
  have hused : (filesAt files).Used i := ⟨by omega, by rw [filesAt_slot hi]⟩
  have hlength := Ramfs.validName_length hname
  have hfind : (filesAt files).table.find file.1 = some (i + 1) := by
    rw [BoundedTable.find, if_neg (by omega), Option.map_eq_some_iff]
    refine ⟨i, Table.firstIndex_eq_some.2 ⟨hused.1, by simp [filesAt_slot hi], fun j hj => ?_⟩, rfl⟩
    have hother : files[j]? = some files[j] := List.getElem?_eq_getElem (by omega)
    rw [filesAt_slot hother, Bool.true_and, beq_eq_false_iff_ne]
    intro hsame
    have hjlt : j < (files.map Prod.fst).length := by simpa using hj.trans hlt
    have hilt : i < (files.map Prod.fst).length := by simpa using hlt
    have hindex : j = i := (@List.Nodup.getElem_inj_iff _ _ hnodup j hjlt i hilt).1 (by
        rw [List.getElem_map, List.getElem_map, (List.getElem?_eq_some_iff.1 hi).2]
        exact hsame)
    omega
  have hopen : (filesAt files).ramfsOpen file.1 false = some (i + 1, filesAt files) := by
    rw [Ramfs.ramfsOpen, BoundedTable.openName, hfind]
    simp [hname]
  refine ⟨hopen, ?_⟩
  rw [fileView, hopen, Option.bind_some, Ramfs.ramfsView_used hused, Ramfs.contentAt,
    filesAt_slot hi]
  refine congrArg some (List.ext_getElem (by simp) fun n hn hn' => ?_)
  simp [Ramfs.byteAt, hn']

/-! ## Commits that are made -/

structure Tracking (r : Repository) (fs : Ramfs) (names : List (List UInt8)) : Prop where
  initialized : r.git.initialized = true
  files : r.files = fs
  unused : r.git.commitCount = 0 ∧ r.git.snapshotUsed = 0
  trackedCount : r.git.trackedCount = names.length
  tracked : ∀ i name, names[i]? = some name → r.git.tracked i = name

theorem Tracking.add {r : Repository} {fs : Ramfs} {names : List (List UInt8)} {name : List UInt8}
    (h : Tracking r fs names) (hfresh : name ∉ names) (hfew : names.length < gitMaxTracked)
    (hlength : 0 < name.length ∧ name.length ≤ gitNameMax)
    (hopen : fs.ramfsOpen name false ≠ none) :
    Tracking (r.step (.add name)) fs (names ++ [name]) := by
  obtain ⟨opened, hopened⟩ := Option.ne_none_iff_exists'.1 hopen
  have hnew : r.git.gitIsTracked name = false := by
    rw [Bool.eq_false_iff, Ne, gitIsTracked_iff]
    rintro ⟨i, hi, rfl⟩
    rw [h.trackedCount] at hi
    refine hfresh ?_
    rw [h.tracked i _ (List.getElem?_eq_getElem hi)]
    exact List.getElem_mem hi
  have hadd : r.git.gitAdd r.files name = (true, { r.git with
      tracked := Function.update r.git.tracked r.git.trackedCount name
      trackedCount := r.git.trackedCount + 1 }) := by
    have hgood : ¬(r.git.initialized = false ∨ name.length = 0 ∨ gitNameMax < name.length) := by
      simp only [h.initialized, Bool.true_eq_false, false_or]
      omega
    have hfull : ¬gitMaxTracked ≤ r.git.trackedCount := by
      rw [h.trackedCount]
      omega
    rw [gitAdd, if_neg hgood, h.files, hopened]
    rw [hnew, if_neg Bool.false_ne_true, if_neg hfull]
  rw [Repository.step, hadd]
  refine ⟨h.initialized, h.files, h.unused, ?_, fun i name' hi => ?_⟩
  · rw [List.length_append, List.length_singleton, ← h.trackedCount]
  · dsimp only
    rw [h.trackedCount]
    rcases eq_or_ne i names.length with rfl | hne
    · rw [Function.update_self]
      simpa using hi
    · rw [Function.update_of_ne hne]
      refine h.tracked i name' ?_
      have hlt := (List.getElem?_eq_some_iff.1 hi).1
      rw [List.length_append, List.length_singleton] at hlt
      rwa [List.getElem?_append_left (by omega)] at hi

theorem Tracking.run_add {fs : Ramfs} : ∀ {names done : List (List UInt8)} {r : Repository},
    Tracking r fs done → (done ++ names).Nodup → (done ++ names).length ≤ gitMaxTracked →
      (∀ name ∈ names, (0 < name.length ∧ name.length ≤ gitNameMax)
        ∧ fs.ramfsOpen name false ≠ none) →
      Tracking (Machine.run Repository.step r (names.map .add)) fs (done ++ names)
  | [], done, r, h, _, _, _ => by
    rw [List.append_nil]
    exact h
  | name :: names, done, r, h, hnodup, hfew, hnames => by
    rw [List.append_cons] at hnodup hfew ⊢
    obtain ⟨hlength, hopen⟩ := hnames name (List.mem_cons_self ..)
    have hfresh : name ∉ done := by
      have hdone := (List.nodup_append.1 hnodup).1
      rw [List.nodup_append] at hdone
      exact fun hmem => hdone.2.2 name hmem name (List.mem_singleton_self name) rfl
    have hroom : done.length < gitMaxTracked := by
      simp only [List.length_append, List.length_singleton] at hfew
      omega
    exact (h.add hfresh hroom hlength hopen).run_add hnodup hfew
      fun name' hmem => hnames name' (List.mem_cons_of_mem _ hmem)

theorem totalBytes_isSome {g : Git} {fs : Ramfs} : ∀ {rest i total : ℕ},
    (∀ j, i ≤ j → j < i + rest → fileSize fs (g.tracked j) ≠ none) →
      g.totalBytes fs rest i total ≠ none
  | 0, _, _, _ => by simp [totalBytes]
  | rest + 1, i, total, h => by
    obtain ⟨length, hlength⟩ := Option.ne_none_iff_exists'.1 (h i le_rfl (by omega))
    rw [totalBytes, hlength]
    exact totalBytes_isSome fun j hj hlt => h j (by omega) (by omega)

/-- A first commit within the bounds, of names that the file system takes, can be made. -/
theorem made_of_possible {c : CommitFields} (h : Possible c) (hparent : c.parentHash = 0)
    (hnodup : (c.files.map Prod.fst).Nodup)
    (hvalid : ∀ file ∈ c.files, Ramfs.validName file.1 = true) : Made c := by
  have hthere : ∀ i file, c.files[i]? = some file →
      (filesAt c.files).ramfsOpen file.1 false = some (i + 1, filesAt c.files)
        ∧ fileView (filesAt c.files) file.1 = some file.2 := fun i file hi =>
    fileView_filesAt hi (h.few.trans (by decide)) hnodup (hvalid file (List.mem_of_getElem? hi))
  refine ⟨{}, {}, .modify (filesAt c.files) :: (c.files.map Prod.fst).map .add, c.message, ?_⟩
  intro r
  have hr : Tracking r (filesAt c.files) (c.files.map Prod.fst) := by
    have hfirst : Tracking ⟨gitRepositoryInit {}, filesAt c.files, []⟩ (filesAt c.files) [] :=
      ⟨rfl, rfl, ⟨rfl, rfl⟩, rfl, fun i name hi => by simp at hi⟩
    refine hfirst.run_add hnodup (by simpa using h.few) fun name hname => ?_
    obtain ⟨file, hfile, rfl⟩ := List.mem_map.1 hname
    obtain ⟨i, hi⟩ := List.mem_iff_getElem?.1 hfile
    exact ⟨h.names file hfile, by simp [(hthere i file hi).1]⟩
  have hcount : r.git.trackedCount = c.files.length := by rw [hr.trackedCount, List.length_map]
  have hentry : ∀ i file, c.files[i]? = some file → r.git.tracked i = file.1 := fun i file hi =>
    hr.tracked i file.1 (by rw [List.getElem?_map, hi, Option.map_some])
  have hfields : r.git.fieldsOf r.files c.message = c := by
    obtain ⟨parentHash, message, files⟩ := c
    obtain rfl : parentHash = 0 := hparent
    rw [fieldsOf, gitHeadHash, if_neg (by rw [hr.unused.1]; exact Nat.lt_irrefl 0),
      List.take_of_length_le h.message]
    congr 1
    refine List.ext_getElem (by simpa using hcount) fun i hi hi' => ?_
    have hfile : files[i]? = some files[i] := List.getElem?_eq_getElem hi'
    rw [List.getElem_map, List.getElem_range, hentry i _ hfile, hr.files, (hthere i _ hfile).2,
      Option.getD_some]
  refine ⟨?_, hfields⟩
  have hgo : ¬r.git.Refuses r.files := by
    rintro (hinit | hnone | hfull | hsize | ⟨total, htotal, hroom⟩)
    · rw [hr.initialized] at hinit
      cases hinit
    · exact h.some (List.length_eq_zero_iff.1 (hcount ▸ hnone))
    · rw [hr.unused.1] at hfull
      exact absurd hfull (by decide)
    · refine totalBytes_isSome (fun j _ hj => ?_) hsize
      have hlt : j < c.files.length := by omega
      have hfile : c.files[j]? = some c.files[j] := List.getElem?_eq_getElem hlt
      obtain ⟨hopen, hview⟩ := hthere j _ hfile
      rw [hentry j _ hfile, hr.files, fileSize, hopen, Option.bind_some]
      rw [fileView, hopen, Option.bind_some, Ramfs.ramfsView, Option.map_eq_some_iff] at hview
      obtain ⟨file, hpayload, -⟩ := hview
      simp [Ramfs.ramfsSize, hpayload]
    · have hsum : total = (c.files.map fun file => file.2.length).sum := by
        rw [totalBytes_eq htotal, Nat.zero_add, ← List.range_eq_range',
          ← congrArg CommitFields.files hfields, fieldsOf, List.map_map]
        rfl
      have hle := h.room
      rw [hr.unused.2, hsum] at hroom
      simp only [gitSnapshotArenaBytes] at hroom hle
      omega
  rcases gitCommit_cases r.git r.files c.message with ⟨hrefuses, -⟩ | ⟨-, hash, g', hsome, -⟩
  · exact absurd hrefuses hgo
  · rw [hsome]
    simp

end Git

/-!
## Commits that share a hash

The stream that is hashed does not say where a field ends. Between two layouts of as many bytes that
are not the same there are always two commits of one stream: a text of letters that tells the places
apart where a name starts in either, cut once into the fields of the one and once into those of the
other (`streams_identify_iff`).
-/

namespace Git

/-! ### A text to cut -/

def letterAt (marks : List ℕ) (p : ℕ) : UInt8 := UInt8.ofNat (0x41 + marks.countP (· < p))

theorem toNat_letterAt {marks : List ℕ} (hfew : marks.length ≤ 16) (p : ℕ) :
    (letterAt marks p).toNat = 0x41 + marks.countP (· < p) := by
  have hle : marks.countP (· < p) ≤ marks.length := List.countP_le_length
  rw [letterAt, UInt8.toNat_ofNat']
  omega

theorem countP_lt {marks : List ℕ} {p q : ℕ} (hp : p ∈ marks) (hlt : p < q) :
    marks.countP (· < p) < marks.countP (· < q) := by
  obtain ⟨before, after, rfl⟩ := List.append_of_mem hp
  have hmono : ∀ l : List ℕ, l.countP (· < p) ≤ l.countP (· < q) := fun l =>
    List.countP_mono_left fun x _ hx => by
      simp only [decide_eq_true_eq] at hx ⊢
      omega
  have hbefore := hmono before
  have hafter := hmono after
  simp only [List.countP_append, List.countP_cons, decide_eq_true_eq, lt_irrefl, if_false, hlt,
    if_true]
  omega

theorem letterAt_inj {marks : List ℕ} (hfew : marks.length ≤ 16) {p q : ℕ} (hp : p ∈ marks)
    (hq : q ∈ marks) (h : letterAt marks p = letterAt marks q) : p = q := by
  have hcount := congrArg UInt8.toNat h
  rw [toNat_letterAt hfew, toNat_letterAt hfew] at hcount
  rcases lt_trichotomy p q with hlt | heq | hlt
  · have := countP_lt hp hlt
    omega
  · exact heq
  · have := countP_lt hq hlt
    omega

theorem validName_letters {name : List UInt8} (hpos : 0 < name.length)
    (hshort : name.length ≤ nameMax)
    (hletters : ∀ c ∈ name, 0x41 ≤ c.toNat ∧ c.toNat ≤ 0x51) : Ramfs.validName name = true := by
  have hsegment : Ramfs.GoodSegment name := by
    refine ⟨List.length_pos_iff.1 hpos, fun c hc => .inl ?_, ?_, ?_⟩
    · obtain ⟨hlow, hhigh⟩ := hletters c hc
      have hz : 'Z'.toUInt8.toNat = 0x5A := by decide
      exact ⟨UInt8.le_iff_toNat_le.2 hlow, UInt8.le_iff_toNat_le.2 (by omega)⟩
    · rintro rfl
      exact absurd (hletters Ramfs.dot (by simp)).1 (by decide)
    · rintro rfl
      exact absurd (hletters Ramfs.dot (by simp)).1 (by decide)
  refine (Ramfs.validName_iff name).2 ⟨hpos, hshort, .inl ⟨[name], by simp, ?_, ?_⟩⟩
  · simpa using hsegment
  · simp [List.intercalate]

namespace CommitFields

variable {text : ℕ → UInt8}

@[simp] theorem length_nameStarts : ∀ (o : ℕ) (files : List (List UInt8 × List UInt8)),
    (nameStarts o files).length = files.length
  | _, [] => rfl
  | o, file :: files => by simp [nameStarts, length_nameStarts]

theorem nameStarts_increase : ∀ {o : ℕ} {files : List (List UInt8 × List UInt8)},
    (∀ file ∈ files, 0 < file.1.length) →
      (∀ p ∈ nameStarts o files, o ≤ p) ∧ (nameStarts o files).Pairwise (· < ·)
  | _, [], _ => by simp [nameStarts]
  | o, file :: files, h => by
    obtain ⟨hfrom, hpairwise⟩ := nameStarts_increase
      (o := o + file.1.length + file.2.length) fun file' hfile =>
        h file' (List.mem_cons_of_mem file hfile)
    have hpos := h file (List.mem_cons_self ..)
    rw [nameStarts, List.pairwise_cons]
    refine ⟨fun p hp => ?_, fun p hp => ?_, hpairwise⟩
    · rcases List.mem_cons.1 hp with rfl | hp
      · exact le_rfl
      · have := hfrom p hp
        omega
    · have := hfrom p hp
      omega

theorem heads_cutFiles : ∀ {o : ℕ} {files : List (List UInt8 × List UInt8)},
    (∀ file ∈ files, 0 < file.1.length) →
      (cutFiles text o files).map (fun file => file.1.head?)
        = (nameStarts o files).map fun p => some (text p)
  | _, [], _ => rfl
  | o, file :: files, h => by
    have hpos := h file (List.mem_cons_self ..)
    have hhead : (window text o file.1.length).head? = some (text o) := by
      rw [window, List.head?_map, List.head?_range', if_neg (by omega), Option.map_some]
    rw [cutFiles, nameStarts, List.map_cons, List.map_cons, hhead, heads_cutFiles fun file' hfile =>
      h file' (List.mem_cons_of_mem file hfile)]

theorem nodup_cutFiles {o : ℕ} {files : List (List UInt8 × List UInt8)}
    (hpos : ∀ file ∈ files, 0 < file.1.length)
    (hinj : ∀ p ∈ nameStarts o files, ∀ q ∈ nameStarts o files, text p = text q → p = q) :
    ((cutFiles text o files).map Prod.fst).Nodup := by
  refine List.Nodup.of_map List.head? ?_
  rw [List.map_map]
  have hheads : ((cutFiles text o files).map fun file => file.1.head?).Nodup := by
    rw [heads_cutFiles hpos]
    refine List.Nodup.map_on (fun p hp q hq hsame => hinj p hp q hq (Option.some.inj hsame)) ?_
    exact (nameStarts_increase hpos).2.imp ne_of_lt
  exact hheads

theorem mem_cutFiles : ∀ {o : ℕ} {files : List (List UInt8 × List UInt8)}
    {file : List UInt8 × List UInt8}, file ∈ cutFiles text o files →
      ∃ like ∈ files, ∃ o', file.1 = window text o' like.1.length
        ∧ file.2.length = like.2.length
  | _, [], _, h => by simp [cutFiles] at h
  | o, like :: files, file, h => by
    rcases List.mem_cons.1 h with rfl | h
    · exact ⟨like, List.mem_cons_self .., o, rfl, by simp⟩
    · obtain ⟨like', hlike, o', hname, hdata⟩ := mem_cutFiles h
      exact ⟨like', List.mem_cons_of_mem _ hlike, o', hname, hdata⟩

theorem contents_cutFiles : ∀ (o : ℕ) (files : List (List UInt8 × List UInt8)),
    (cutFiles text o files).map (fun file => file.2.length) = files.map fun file => file.2.length
  | _, [] => rfl
  | o, file :: files => by simp [cutFiles, contents_cutFiles]

@[simp] theorem length_cutFiles : ∀ (o : ℕ) (files : List (List UInt8 × List UInt8)),
    (cutFiles text o files).length = files.length
  | _, [] => rfl
  | o, file :: files => by simp [cutFiles, length_cutFiles]

end CommitFields

theorem Possible.recut {c : CommitFields} (h : Possible c) (text : ℕ → UInt8) :
    Possible (c.recut text) := by
  refine ⟨?_, ?_, ?_, fun file hfile => ?_, ?_⟩
  · rw [CommitFields.recut, CommitFields.length_window]
    exact h.message
  · rw [CommitFields.recut, ← List.length_pos_iff, CommitFields.length_cutFiles]
    exact List.length_pos_iff.2 h.some
  · rw [CommitFields.recut, CommitFields.length_cutFiles]
    exact h.few
  · obtain ⟨like, hlike, o, hname, -⟩ := CommitFields.mem_cutFiles hfile
    rw [hname, CommitFields.length_window]
    exact h.names like hlike
  · rw [CommitFields.recut, CommitFields.contents_cutFiles]
    exact h.room

def marksOf (c : CommitFields) : List ℕ := CommitFields.nameStarts c.message.length c.files

theorem Possible.made_recut {c : CommitFields} (h : Possible c) {marks : List ℕ}
    (hfew : marks.length ≤ 16) (hmarks : marksOf c ⊆ marks) : Made (c.recut (letterAt marks)) := by
  refine made_of_possible (h.recut _) rfl ?_ fun file hfile => ?_
  · exact CommitFields.nodup_cutFiles (fun file hfile => (h.names file hfile).1)
      fun p hp q hq => letterAt_inj hfew (hmarks hp) (hmarks hq)
  · obtain ⟨like, hlike, o, hname, -⟩ := CommitFields.mem_cutFiles hfile
    obtain ⟨hpos, hshort⟩ := h.names like hlike
    rw [hname]
    rw [← CommitFields.length_window (letterAt marks) o like.1.length] at hpos hshort
    refine validName_letters hpos hshort fun c hc => ?_
    obtain ⟨p, -, rfl⟩ := List.mem_map.1 hc
    have hle : marks.countP (· < p) ≤ marks.length := List.countP_le_length
    rw [toNat_letterAt hfew]
    omega

theorem shared_stream {c c' : CommitFields} (hc : Possible c) (hc' : Possible c')
    (hsum : c.layout.sum = c'.layout.sum) :
    ∃ d d', Made d ∧ Made d' ∧ d.layout = c.layout ∧ d'.layout = c'.layout
      ∧ d.stream = d'.stream := by
  have hfew : (marksOf c ++ marksOf c').length ≤ 16 := by
    have := hc.few
    have := hc'.few
    simp only [marksOf, List.length_append, CommitFields.length_nameStarts, gitMaxTracked] at *
    omega
  refine ⟨_, _, hc.made_recut hfew (List.subset_append_left ..),
    hc'.made_recut hfew (List.subset_append_right ..), CommitFields.layout_recut ..,
    CommitFields.layout_recut .., ?_⟩
  rw [CommitFields.stream_recut, CommitFields.stream_recut, hsum]

def oneFile (name data : List UInt8) : Repository :=
  Machine.run Repository.step ⟨gitRepositoryInit {}, {}, []⟩
    [.modify (Ramfs.ramfsSeed {} name data).2, .add name]

theorem made_oneFile (name data message : List UInt8)
    (h : ((oneFile name data).git.gitCommit (oneFile name data).files message).1 ≠ none) :
    Made ((oneFile name data).git.fieldsOf (oneFile name data).files message) :=
  ⟨_, _, _, message, h, rfl⟩

/-- The hash of a commit is the hash of its stream. Given two layouts that commits have, equal
streams mean equal commits for all commits of these layouts exactly if the layouts are the same or
do not add up to as many bytes. -/
theorem streams_identify_iff {c c' : CommitFields} (hc : Made c) (hc' : Made c') :
    (∀ (g g' : Git) (fs : Ramfs) (message : List UInt8) (hash : UInt64),
        g.gitCommit fs message = (some hash, g') →
          hash = hashBytes 1469598103934665603 (g.fieldsOf fs message).stream)
      ∧ ((∀ d d', Made d → Made d' → d.layout = c.layout → d'.layout = c'.layout →
            d.stream = d'.stream → d = d')
          ↔ c.layout = c'.layout ∨ c.layout.sum ≠ c'.layout.sum) := by
  refine ⟨fun g g' fs message hash => gitCommit_hash, fun hall => ?_, ?_⟩
  · by_cases hsum : c.layout.sum = c'.layout.sum
    · obtain ⟨d, d', hd, hd', hlayout, hlayout', hstream⟩ :=
        shared_stream hc.possible hc'.possible hsum
      have hsame := hall d d' hd hd' hlayout hlayout' hstream
      exact .inl (by rw [← hlayout, ← hlayout', hsame])
    · exact .inr hsum
  · rintro hcond d d' - - hlayout hlayout' hstream
    rcases hcond with hsame | hsum
    · exact CommitFields.eq_of_stream (by rw [hlayout, hlayout', hsame]) hstream
    · have hlength := congrArg List.length hstream
      rw [CommitFields.length_stream, CommitFields.length_stream, hlayout, hlayout'] at hlength
      omega

theorem streams_identify_iff_oneFile :
    let commit (name data : List UInt8) : CommitFields :=
      (oneFile name data).git.fieldsOf (oneFile name data).files [0x78]
    (∀ (g g' : Git) (fs : Ramfs) (message : List UInt8) (hash : UInt64),
        g.gitCommit fs message = (some hash, g') →
          hash = hashBytes 1469598103934665603 (g.fieldsOf fs message).stream)
      ∧ ((∀ d d', Made d → Made d' → d.layout = (commit [0x61] [0x62]).layout →
            d'.layout = (commit [0x63] [0x64]).layout → d.stream = d'.stream → d = d')
          ↔ (commit [0x61] [0x62]).layout = (commit [0x63] [0x64]).layout
            ∨ (commit [0x61] [0x62]).layout.sum ≠ (commit [0x63] [0x64]).layout.sum) := by
  intro commit
  exact streams_identify_iff (made_oneFile [0x61] [0x62] [0x78] (by decide +kernel))
    (made_oneFile [0x63] [0x64] [0x78] (by decide +kernel))

/-- The file `a` that holds `bc` and the file `ab` that holds `c` make two commits of one stream. -/
theorem shared_hash :
    ¬∀ c c', Made c → Made c' → c.stream = c'.stream → c = c' := by
  intro hall
  have hsame := hall _ _
    (made_oneFile [0x61] [0x62, 0x63] [0x78] (by decide +kernel))
    (made_oneFile [0x61, 0x62] [0x63] [0x78] (by decide +kernel))
    (by decide +kernel)
  exact absurd (congrArg CommitFields.files hsame) (by decide +kernel)

end Git

end DemonOS
