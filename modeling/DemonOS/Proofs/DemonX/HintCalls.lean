import DemonOS.Proofs.DemonX.PropertyCalls

/-!
# Hints set by one client and read by another

A client that sets a hint is told that it has, whatever becomes of it. Another client, or the same,
reads what was set where the window is there, the table has room, and the reader is not told of the
change itself (`PassesOn`); even then a reply carries no more than 16 bytes, so that size hints are
never read (`hint_pairs_round_trip_iff`).
-/

namespace DemonOS

namespace DemonX

/-- The reader of a property finds it, and hears nothing of its change, which it would take for the
answer to its next request. -/
structure Server.PassesOn (s : Server) (window property getter : UInt32) : Prop where
  admits : s.AdmitsProperty window property
  unheard : s.propertyListener window ≠ some getter

namespace Desktop

variable {name : CString} {w : WindowProperty}

variable {d d₁ : Desktop} {s t : Server} {sys : Answers} {setter getter window property : UInt32}
  {v : Stored}

/-- Two clients that are ready, and no one selects the properties of the window who has not opened a
display. -/
structure Shared (d : Desktop) (s : Server) (setter getter window : UInt32) : Prop where
  runs : d.Runs s
  setter : d.Ready s setter
  getter : d.Ready s getter
  heard : ∀ c, s.propertyListener window = some c → s.Connected c

theorem Besides.propertyListener (h : Besides s t) (window : UInt32) :
    t.propertyListener window = s.propertyListener window := by
  unfold Server.propertyListener Server.findWindow Server.window
  rw [h.memory, h.rootEventMask, h.rootEventClient]

theorem Shared.continues (h : d.Shared s setter getter window) (hgoes : d.Continues s d₁ t)
    (hbesides : Besides s t) : d₁.Shared t setter getter window where
  runs := hgoes.runs
  setter := hgoes.ready h.setter
  getter := hgoes.ready h.getter
  heard c hc := (h.heard c ((hbesides.propertyListener window).symm.trans hc)).congr hgoes.memory

theorem Besides.passesOn_iff (h : Besides s t) :
    t.PassesOn window property getter ↔ s.PassesOn window property getter := by
  constructor
  · rintro ⟨hadmits, hunheard⟩
    exact ⟨hadmits.congr h.memory.symm h.properties.symm, h.propertyListener window ▸ hunheard⟩
  · rintro ⟨hadmits, hunheard⟩
    exact ⟨hadmits.congr h.memory h.properties, (h.propertyListener window).symm ▸ hunheard⟩

theorem Changed.passesOn_cases (h : Changed s window property v getter d t) :
    (s.PassesOn window property getter ∧ t.HoldsProperty window property v ∧ d.Ready t getter)
      ∨ (¬s.PassesOn window property getter
        ∧ (d.Misled getter ∨ (t.LacksProperty window property ∧ d.Ready t getter))) := by
  cases h with
  | kept hadmits hheard hholds hready => exact .inl ⟨⟨hadmits, hheard⟩, hholds, hready⟩
  | noticed hheard hmisled => exact .inr ⟨fun hpasses => hpasses.unheard hheard, .inl hmisled⟩
  | refused hnot hlacks hready =>
    exact .inr ⟨fun hpasses => hnot hpasses.admits, .inr ⟨hlacks, hready⟩⟩
  | reported hnot hmisled => exact .inr ⟨fun hpasses => hnot hpasses.admits, .inl hmisled⟩

/-! ## Properties with a name -/

theorem setNamed_spec (hsys : Server.Delivers sys) (h : d.Shared s setter getter window)
    (hlength : ¬(name.bytes.length = 0 ∨ 32 < name.bytes.length))
    {change : UInt32 → Desktop → Bool × Desktop}
    (hset : d.setNamed sys setter name change = some (true, d₁)) :
    ∃ d' t, d'.Shared t setter getter window ∧ Besides s t
      ∧ t.atoms = (named s name false).2.atoms ∧ (named s name false).1 ≠ 0
      ∧ change (named s name false).1 d' = (true, d₁) := by
  obtain ⟨d', t, hgoes, hbesides, hatoms, hcall⟩ :=
    xInternAtom_makes hsys h.runs h.setter name false hlength
  unfold setNamed at hset
  rw [hcall, Option.map_some, Option.some.injEq] at hset
  split_ifs at hset with hzero
  · cases hset
  · exact ⟨d', t, h.continues hgoes hbesides, hbesides, hatoms, hzero, hset⟩

theorem named_exchange (hsys : Server.Delivers sys) (h : d.Shared s setter getter window)
    (hlength : ¬(name.bytes.length = 0 ∨ 32 < name.bytes.length))
    (type : UInt32 → UInt32) (htype : ∀ property, property ≠ 0 → type property ≠ 0) {format : UInt8}
    (hformat : Server.itemBytes format ≠ 0) {count bytes : ℕ}
    (hbytes : count * (Server.itemBytes format).toNat = bytes) (hfits : bytes ≤ propertyDataBytes)
    (data : ℕ → UInt8)
    {length : UInt32} (hwords : length.toNat < 2 ^ 30)
    (hset : d.setNamed sys setter name (fun property d => d.xChangeProperty sys setter window property
      (type property) format propModeReplace data count) = some (true, d₁)) :
    (s.PassesOn window (named s name false).1 getter
        ∧ ∃ w d₂, d₁.getNamed sys getter window name length type format = some (some w, d₂)
          ∧ w.Reads ⟨type (named s name false).1, format, nameBytes data bytes⟩ length.toNat)
      ∨ (¬s.PassesOn window (named s name false).1 getter
        ∧ ∃ d₂, d₁.getNamed sys getter window name length type format = some (none, d₂)) := by
  obtain ⟨d', t, hshared, hbesides, hatoms, hzero, hchange⟩ := setNamed_spec hsys h hlength hset
  generalize hatom : (named s name false).1 = property at hzero hchange ⊢
  obtain ⟨d'', u, hsend, hruns, huatoms, hchanged⟩ := xChangeProperty_spec hsys hshared.runs
    hshared.setter hshared.getter data hshared.heard hzero (htype property hzero) hformat hbytes
    hfits
  obtain rfl : d'' = d₁ := congrArg Prod.snd (hsend.symm.trans hchange)
  rw [← hbesides.passesOn_iff]
  have hagain : ∀ u', u'.atoms = u.atoms → (named u' name true).1 = property := fun u' hu' => by
    rw [← hatom]
    exact Server.makeAtom_again (by omega) (hatom ▸ hzero) (hu'.trans (huatoms.trans hatoms))
  unfold getNamed
  rcases hchanged.passesOn_cases with ⟨hpasses, hholds, hready⟩ | ⟨hnot, hmisled | ⟨hlacks, hready⟩⟩
  · obtain ⟨d₂, u', hgoes, hbesides', -, hcall⟩ :=
      xInternAtom_makes hsys hruns hready name true hlength
    rw [hagain u rfl] at hcall
    have hholds' : u'.HoldsProperty window property
        ⟨type property, format, nameBytes data bytes⟩ :=
      hholds.congr hbesides'.memory hbesides'.properties
    obtain ⟨w, d₃, hread, hreads⟩ := xGetWindowProperty_holds hsys hgoes.runs (hgoes.ready hready)
      hholds' (.inr rfl) hwords
    refine .inl ⟨hpasses, w, d₃, ?_, hreads⟩
    rw [hcall]
    dsimp only
    rw [if_neg hzero, hread, Option.map_some, Option.filter_some,
      if_pos (decide_eq_true ⟨hreads.type, hreads.format⟩)]
  · refine .inr ⟨hnot, ?_⟩
    obtain ⟨d₂, hcall⟩ := hmisled.xInternAtom sys name true
    rw [hcall]
    exact ⟨d₂, rfl⟩
  · refine .inr ⟨hnot, ?_⟩
    obtain ⟨d₂, u', hgoes, hbesides', -, hcall⟩ :=
      xInternAtom_makes hsys hruns hready name true hlength
    rw [hagain u rfl] at hcall
    have hlacks' : u'.LacksProperty window property :=
      hlacks.congr hbesides'.memory hbesides'.properties
    obtain ⟨r, d₃, hread, hnone⟩ := xGetWindowProperty_lacks hsys hgoes.runs (hgoes.ready hready)
      hlacks' (type property) length
    rw [hcall]
    dsimp only
    rw [if_neg hzero, hread, Option.map_some]
    refine ⟨d₃, congrArg (fun r => some (r, d₃)) ?_⟩
    rw [Option.filter_eq_none_iff]
    intro w hw hmatch
    exact htype property hzero ((of_decide_eq_true hmatch).1.symm.trans (hnone w hw))

/-! ## Values -/

def Returns {α : Type} (r : Option (Option α × Desktop)) (v : α) : Prop := ∃ d, r = some (some v, d)

theorem returns_iff {α β : Type} {r : Option (Option α × Desktop)} {w : α} {d : Desktop}
    (h : r = some (some w, d)) (f : α → Option β) (v : β) :
    Returns (r.map fun r => (r.1.bind f, r.2)) v ↔ f w = some v := by
  rw [h]
  constructor
  · rintro ⟨d', hd⟩
    exact congrArg Prod.fst (Option.some.inj hd)
  · intro hw
    exact ⟨d, congrArg (fun o => some (o, d)) hw⟩

theorem not_returns {α β : Type} {r : Option (Option α × Desktop)} {d : Desktop}
    (h : r = some (none, d)) (f : α → Option β) (v : β) :
    ¬Returns (r.map fun r => (r.1.bind f, r.2)) v := by
  rw [h]
  rintro ⟨d', hd⟩
  exact Option.some_ne_none v (congrArg Prod.fst (Option.some.inj hd)).symm

theorem part_of_le {n : ℕ} (h : v.bytes.length ≤ 16) (hn : 4 ≤ n) : v.part 0 n = v.bytes := by
  rw [part_zero]
  exact List.take_of_length_le (by omega)

theorem WindowProperty.Reads.byte {n bytes k : ℕ} {data : ℕ → UInt8}
    (h : w.Reads v n) (hbytes : v.bytes = nameBytes data bytes) (hn : 4 ≤ n)
    (hk : k < bytes) (hfits : k < 16) : w.data k = data k := by
  have hpart : v.part 0 n = nameBytes data (min bytes 16) := by
    rw [part_zero, hbytes, nameBytes, nameBytes, ← List.map_take, List.take_range]
    congr 2
    omega
  have hdata := h.data
  rw [hpart, length_nameBytes] at hdata
  exact nameBytes_inj.1 hdata k (by omega)

/-! ## The class -/

theorem classData_name (hint : XClassHint) {k : ℕ} (hk : k < hint.resName.bytes.length) :
    classData hint k = hint.resName.bytes.getD k 0 := by
  simp [classData, List.getD, List.getElem?_append_left hk]

theorem classData_split (hint : XClassHint) : classData hint hint.resName.bytes.length = 0 := by
  simp [classData, List.getD]

theorem classData_class (hint : XClassHint) (k : ℕ) :
    classData hint (hint.resName.bytes.length + 1 + k) = hint.resClass.bytes.getD k 0 := by
  have hle : hint.resName.bytes.length ≤ hint.resName.bytes.length + 1 + k := by omega
  have hsub : hint.resName.bytes.length + 1 + k - hint.resName.bytes.length = k + 1 := by omega
  simp [classData, List.getD, List.getElem?_append_right hle, hsub]

theorem class_read {hint : XClassHint}
    (hfits : hint.resName.bytes.length + hint.resClass.bytes.length + 2 ≤ 16)
    (h : w.Reads ⟨xaString, 8, nameBytes (classData hint)
      (hint.resName.bytes.length + hint.resClass.bytes.length + 2)⟩ 4) :
    w.itemCount.toNat = hint.resName.bytes.length + hint.resClass.bytes.length + 2
      ∧ classSplit w = hint.resName.bytes.length
      ∧ cString w.data 24 0 = hint.resName.bytes
      ∧ cString w.data 24 (hint.resName.bytes.length + 1) = hint.resClass.bytes := by
  have hbyte : ∀ k, k < hint.resName.bytes.length + hint.resClass.bytes.length + 2 →
      w.data k = classData hint k := fun k hk => h.byte rfl le_rfl hk (by omega)
  have hcount : w.itemCount.toNat
      = hint.resName.bytes.length + hint.resClass.bytes.length + 2 := by
    have hitems := h.items
    rw [part_of_le (by simpa using hfits) le_rfl] at hitems
    simpa [Server.itemBytes] using hitems
  have hname : ∀ size, hint.resName.bytes.length < size →
      cString w.data size 0 = hint.resName.bytes := fun size hsize => by
    refine cString_eq (by omega) ?_ ?_ hint.resName.noNul
    · conv_rhs => rw [← nameBytes_getD hint.resName.bytes]
      refine nameBytes_inj.2 fun k hk => ?_
      rw [Nat.zero_add, hbyte k (by omega), classData_name hint hk]
    · rw [Nat.zero_add, hbyte _ (by omega), classData_split]
  refine ⟨hcount, ?_, hname 24 (by omega), cString_eq (by omega) ?_ ?_ hint.resClass.noNul⟩
  · have hsplit := congrArg List.length (hname w.itemCount.toNat (by omega))
    simpa [cString, classSplit] using hsplit
  · conv_rhs => rw [← nameBytes_getD hint.resClass.bytes]
    refine nameBytes_inj.2 fun k hk => ?_
    rw [hbyte _ (by omega), classData_class]
  · rw [hbyte _ (by omega), classData_class]
    simp [List.getD]

theorem class_round_trip_iff (hsys : Server.Delivers sys) (h : d.Shared s setter getter window)
    {hint : XClassHint} (hset : d.xSetClassHint sys setter window hint = some (true, d₁)) :
    Returns (d₁.xGetClassHint sys getter window) (hint.resName.bytes, hint.resClass.bytes)
      ↔ s.PassesOn window (named s wmClass false).1 getter := by
  unfold xSetClassHint at hset
  dsimp only at hset
  split_ifs at hset with hlong
  · cases hset
  rw [not_lt] at hlong
  rcases named_exchange hsys h (by decide) (fun _ => xaString) (fun _ _ => by decide)
    (by decide) (Nat.mul_one _) (hlong.trans (by decide)) (classData hint)
    (show (4 : UInt32).toNat < 2 ^ 30 by decide) hset with ⟨hpasses, w, d₂, hread, hreads⟩ | ⟨hnot, d₂, hread⟩
  · refine iff_of_true ((returns_iff hread _ _).2 ?_) hpasses
    obtain ⟨hcount, hsplit, hname, hclass⟩ := class_read hlong hreads
    rw [if_neg, hsplit, hname, hclass]
    rw [hsplit, hcount, UInt32.lt_iff_toNat_lt, hcount]
    have htwo : (2 : UInt32).toNat = 2 := rfl
    omega
  · exact iff_of_false (not_returns hread _ _) hnot

/-! ## The window-manager hints -/

theorem WindowProperty.Reads.field32 {n bytes a : ℕ} {data : ℕ → UInt8}
    (h : w.Reads v n) (hbytes : v.bytes = nameBytes data bytes) (hn : 4 ≤ n) (ha : a + 4 ≤ bytes)
    (hfits : a + 4 ≤ 16) : read32 w.data a = read32 data a :=
  congrArg UInt32.ofNat (LittleEndian.load_congr fun k _ hk => h.byte hbytes hn (by omega) (by omega))

theorem hintsData_fields (hints : XWMHints) :
    read32 (hintsData hints) 0 = hints.flags.toUInt64.toUInt32
      ∧ read32 (hintsData hints) 4 = hints.input.toUInt32
      ∧ read32 (hintsData hints) 8 = hints.initialState.toUInt32
      ∧ read32 (hintsData hints) 12 = hints.iconWindow := by
  simp (disch := omega) only [hintsData, write32, read32_store_of_disjoint, read32_store_self,
    and_self]

theorem hints_read {hints : XWMHints} {type : UInt32}
    (h : w.Reads ⟨type, 32, nameBytes (hintsData hints) 16⟩ 4) :
    w.itemCount = 4 ∧ read32 w.data 0 = hints.flags.toUInt64.toUInt32
      ∧ read32 w.data 4 = hints.input.toUInt32 ∧ read32 w.data 8 = hints.initialState.toUInt32
      ∧ read32 w.data 12 = hints.iconWindow := by
  obtain ⟨hflags, hinput, hstate, hicon⟩ := hintsData_fields hints
  have hfield : ∀ {a}, a + 4 ≤ 16 → read32 w.data a = read32 (hintsData hints) a :=
    fun ha => h.field32 rfl le_rfl ha ha
  refine ⟨?_, (hfield (by omega)).trans hflags, (hfield (by omega)).trans hinput,
    (hfield (by omega)).trans hstate, (hfield (by omega)).trans hicon⟩
  have hitems : w.itemCount.toNat * 4 = _ := h.items
  rw [part_of_le (by simp) le_rfl, length_nameBytes] at hitems
  exact UInt32.toNat_inj.1 (show w.itemCount.toNat = 4 by omega)

theorem wm_hints_round_trip_iff (hsys : Server.Delivers sys) (h : d.Shared s setter getter window)
    {hints : XWMHints} (hset : d.xSetWMHints sys setter window hints = some (true, d₁)) :
    Returns (d₁.xGetWMHints sys getter window) hints
      ↔ s.PassesOn window (named s wmHints false).1 getter
        ∧ hints.flags.toUInt64.toNat < 2 ^ 32 := by
  rcases named_exchange hsys h (by decide) id (fun _ hne => hne) (by decide)
    (show 4 * (Server.itemBytes 32).toNat = 16 from rfl) (by decide) (hintsData hints)
    (show (4 : UInt32).toNat < 2 ^ 30 by decide) hset with
    ⟨hpasses, w, d₂, hread, hreads⟩ | ⟨hnot, d₂, hread⟩
  · refine (returns_iff hread _ _).trans ?_
    obtain ⟨hcount, hflags, hinput, hstate, hicon⟩ := hints_read hreads
    rw [and_iff_right hpasses, ← cut_iff, hcount, if_neg (by decide),
      if_pos (by decide : (4 : UInt32) ≤ 4), readLong, hflags, hinput, hstate, hicon]
    cases hints
    simp
  · exact iff_of_false (not_returns hread _ _) fun hboth => hnot hboth.1

/-! ## The size hints -/

theorem size_hints_unread (hsys : Server.Delivers sys) (h : d.Shared s setter getter window)
    {hints : XSizeHints} (hset : d.xSetNormalHints sys setter window hints = some (true, d₁))
    (hints' : XSizeHints) : ¬Returns (d₁.xGetWMNormalHints sys getter window) hints' := by
  rcases named_exchange hsys h (by decide) id (fun _ hne => hne) (by decide)
    (show 6 * (Server.itemBytes 32).toNat = 24 from rfl) (by decide) (sizeHintsData hints)
    (show (6 : UInt32).toNat < 2 ^ 30 by decide) hset with
    ⟨-, w, d₂, hread, hreads⟩ | ⟨-, d₂, hread⟩
  · intro hreturns
    have hsome := (returns_iff hread _ _).1 hreturns
    have hitems : w.itemCount.toNat * 4 = _ := hreads.items
    rw [part_zero, List.length_take, length_nameBytes] at hitems
    split_ifs at hsome with hcount
    rw [not_not] at hcount
    rw [hcount] at hitems
    exact absurd hitems (by decide)
  · exact not_returns hread _ _

/-! ## Protocols -/

theorem read32_words (ws : List UInt32) {k : ℕ} (hk : k < ws.length) :
    read32 (words ws) (4 * k) = ws[k] := by
  have hload : LittleEndian.load (words ws) (4 * k) 4
      = LittleEndian.load (LittleEndian.store (fun _ => 0) (4 * k) 4 ws[k].toNat) (4 * k) 4 := by
    refine LittleEndian.load_congr fun b hb hlt => ?_
    have hdiv : b / 4 = k := by omega
    have hmod : b % 4 = b - 4 * k := by omega
    unfold words LittleEndian.store
    rw [if_pos ⟨hb, hlt⟩, hdiv, hmod]
    simp [List.getD, hk]
  rw [read32, hload, LittleEndian.load_store_of_lt _ ws[k].toNat_lt, UInt32.ofNat_toNat]

theorem protocols_read {protocols : List UInt32}
    (h : w.Reads ⟨xaAtom, 32, nameBytes (words protocols) (protocols.length * 4)⟩ 4) :
    ((List.range w.itemCount.toNat).map fun k => read32 w.data (4 * k)) = protocols.take 4 := by
  have hitems : w.itemCount.toNat * 4 = _ := h.items
  rw [part_zero, List.length_take, length_nameBytes] at hitems
  refine List.ext_getElem (by simp; omega) fun k hk hk' => ?_
  rw [List.length_take] at hk'
  rw [List.getElem_map, List.getElem_range, List.getElem_take, ← read32_words protocols (by omega)]
  exact h.field32 rfl le_rfl (by omega) (by omega)

theorem protocols_round_trip_iff (hsys : Server.Delivers sys) (h : d.Shared s setter getter window)
    {protocols : List UInt32}
    (hset : d.xSetWMProtocols sys setter window protocols = some (true, d₁)) :
    Returns (d₁.xGetWMProtocols sys getter window) protocols
      ↔ s.PassesOn window (named s wmProtocols false).1 getter ∧ protocols.length ≤ 4 := by
  unfold xSetWMProtocols at hset
  split_ifs at hset with hlong
  · cases hset
  have hfits : protocols.length * 4 ≤ propertyDataBytes := by
    omega
  have hcall : d₁.xGetWMProtocols sys getter window
      = (d₁.getNamed sys getter window wmProtocols 4 (fun _ => xaAtom) 32).map fun r =>
        (r.1.bind fun w => some ((List.range w.itemCount.toNat).map fun k =>
          read32 w.data (4 * k)), r.2) := by
    unfold xGetWMProtocols
    simp only [Option.map_eq_bind]
    rfl
  rw [hcall]
  rcases named_exchange hsys h (by decide) (fun _ => xaAtom) (fun _ _ => by decide) (by decide)
    (show protocols.length * (Server.itemBytes 32).toNat = protocols.length * 4 from rfl) hfits
    (words protocols) (show (4 : UInt32).toNat < 2 ^ 30 by decide) hset with
    ⟨hpasses, w, d₂, hread, hreads⟩ | ⟨hnot, d₂, hread⟩
  · refine (returns_iff hread _ _).trans ?_
    rw [and_iff_right hpasses, protocols_read hreads, Option.some.injEq, List.take_eq_self_iff]
  · exact iff_of_false (not_returns hread _ _) fun hboth => hnot hboth.1

/-! ## The name -/

def XTextProperty.text (p : XTextProperty) : List UInt8 := nameBytes p.value p.nitems.toNat

theorem name_read
    (h : w.Reads ⟨xaString, 8, nameBytes (fun k => name.bytes.getD k 0) name.bytes.length⟩ 4) :
    nameBytes w.data w.itemCount.toNat = name.bytes.take 16 := by
  have hitems : w.itemCount.toNat * 1 = _ := h.items
  have hdata := h.data
  rw [Nat.mul_one] at hitems
  rw [← hitems, part_zero, nameBytes_getD] at hdata
  exact hdata

theorem name_round_trip_iff (hsys : Server.Delivers sys) (h : d.Shared s setter getter window)
    (hset : d.xStoreName sys setter window name = (true, d₁)) :
    (∃ p : XTextProperty, Returns (d₁.xGetTextProperty sys getter window xaWmName) p
        ∧ p.text = name.bytes ∧ p.encoding = xaString ∧ p.format = 8)
      ↔ s.PassesOn window xaWmName getter ∧ name.bytes.length ≤ 16 := by
  unfold xStoreName at hset
  split_ifs at hset with hlong
  · cases hset
  rw [not_lt] at hlong
  obtain ⟨d', t, hsend, hruns, -, hchanged⟩ := xChangeProperty_spec hsys h.runs h.setter h.getter
    (fun k => name.bytes.getD k 0) h.heard (by decide : xaWmName ≠ 0) (by decide : xaString ≠ 0)
    (by decide : Server.itemBytes 8 ≠ 0) (Nat.mul_one _) hlong
  obtain rfl : d' = d₁ := congrArg Prod.snd (hsend.symm.trans hset)
  rcases hchanged.passesOn_cases with ⟨hpasses, hholds, hready⟩ | ⟨hnot, hmisled | ⟨hlacks, hready⟩⟩
  · obtain ⟨w, d₂, hread, hreads⟩ := xGetWindowProperty_holds hsys hruns hready hholds
      (.inl rfl) (show (4 : UInt32).toNat < 2 ^ 30 by decide)
    have htype : w.actualType = xaString := hreads.type
    have htext := name_read hreads
    have hreturns : ∀ p, Returns (d'.xGetTextProperty sys getter window xaWmName) p
        ↔ some ⟨w.data, w.actualType, w.actualFormat, w.itemCount⟩ = some p := fun p => by
      refine (returns_iff hread _ _).trans ?_
      rw [if_neg (by rw [htype]; decide)]
    rw [and_iff_right hpasses, ← List.take_eq_self_iff, ← htext]
    constructor
    · rintro ⟨p, hp, hbytes, -⟩
      obtain rfl := Option.some.inj ((hreturns p).1 hp)
      exact hbytes
    · intro hbytes
      exact ⟨_, (hreturns _).2 rfl, hbytes, htype, hreads.format⟩
  · obtain ⟨d₂, hread⟩ := hmisled.xGetWindowProperty sys window xaWmName 0 4 false 0
    exact iff_of_false (fun ⟨p, hp, _⟩ => not_returns hread _ _ hp) fun hboth => hnot hboth.1
  · obtain ⟨r, d₂, hread, hnone⟩ := xGetWindowProperty_lacks hsys hruns hready hlacks 0 4
    refine iff_of_false ?_ fun hboth => hnot hboth.1
    rintro ⟨p, hp, -⟩
    rcases r with _ | w
    · exact not_returns hread _ _ hp
    · have hsome := (returns_iff hread _ _).1 hp
      rw [if_pos (hnone w rfl)] at hsome
      cases hsome

/-! ## All five pairs -/

/-- Where a setter has reported success, the getter gives back what was set just when the change is
passed on and the value fits: flags have 32 bits, there are four protocols at most, and a name has
16 bytes at most. Size hints are never given back. -/
theorem hint_pairs_round_trip_iff (sys : Answers) (hsys : Server.Delivers sys)
    (h : d.Shared s setter getter window) :
    (∀ hint d₁, d.xSetClassHint sys setter window hint = some (true, d₁) →
      (Returns (d₁.xGetClassHint sys getter window) (hint.resName.bytes, hint.resClass.bytes)
        ↔ s.PassesOn window (named s wmClass false).1 getter))
    ∧ (∀ hints d₁, d.xSetWMHints sys setter window hints = some (true, d₁) →
      (Returns (d₁.xGetWMHints sys getter window) hints
        ↔ s.PassesOn window (named s wmHints false).1 getter
          ∧ hints.flags.toUInt64.toNat < 2 ^ 32))
    ∧ (∀ hints d₁, d.xSetNormalHints sys setter window hints = some (true, d₁) →
      ¬Returns (d₁.xGetWMNormalHints sys getter window) hints)
    ∧ (∀ protocols d₁, d.xSetWMProtocols sys setter window protocols = some (true, d₁) →
      (Returns (d₁.xGetWMProtocols sys getter window) protocols
        ↔ s.PassesOn window (named s wmProtocols false).1 getter ∧ protocols.length ≤ 4))
    ∧ ∀ name d₁, d.xStoreName sys setter window name = (true, d₁) →
      ((∃ p : XTextProperty, Returns (d₁.xGetTextProperty sys getter window xaWmName) p
          ∧ p.text = name.bytes ∧ p.encoding = xaString ∧ p.format = 8)
        ↔ s.PassesOn window xaWmName getter ∧ name.bytes.length ≤ 16) :=
  ⟨fun _ _ => class_round_trip_iff hsys h, fun _ _ => wm_hints_round_trip_iff hsys h,
    fun hints _ hset => size_hints_unread hsys h hset hints,
    fun _ _ => protocols_round_trip_iff hsys h, fun _ _ => name_round_trip_iff hsys h⟩

def classA : XClassHint where
  resName := nameA
  resClass := nameA

theorem quiet_shared : (quiet connected).Shared connected 1 2 rootWindow where
  runs := ⟨rfl, rfl⟩
  setter := quiet_ready 1 (.inl rfl)
  getter := quiet_ready 2 (.inr rfl)
  heard c hc := by cases (show (none : Option UInt32) = some c from hc)

/-- The first client gives the root a class, and the second reads it. -/
theorem hint_pairs_round_trip_class : ∃ d₁,
    (quiet connected).xSetClassHint taking 1 rootWindow classA = some (true, d₁)
      ∧ Returns (d₁.xGetClassHint taking 2 rootWindow) ([65], [65]) := by
  have hset : ((quiet connected).xSetClassHint taking 1 rootWindow classA).map Prod.fst
      = some true := by decide +kernel
  obtain ⟨⟨set, d₁⟩, hsome, rfl⟩ := Option.map_eq_some_iff.1 hset
  refine ⟨d₁, hsome, ((hint_pairs_round_trip_iff taking (fun _ _ _ => rfl) quiet_shared).1 classA d₁
    hsome).2 ⟨⟨by decide, by decide +kernel⟩, fun hheard => ?_⟩⟩
  cases (show (none : Option UInt32) = some 2 from hheard)

def sizeHints : XSizeHints where
  flags := 16
  minWidth := 100
  minHeight := 50
  maxWidth := 0
  maxHeight := 0
  widthInc := 0
  heightInc := 0
  baseWidth := 0
  baseHeight := 0
  winGravity := 0

/-- The root's size hints are set, and not read. -/
theorem size_hints_lost : ¬∀ hints d₁,
    (quiet connected).xSetNormalHints taking 1 rootWindow hints = some (true, d₁) →
      Returns (d₁.xGetWMNormalHints taking 2 rootWindow) hints := by
  intro h
  have hset : ((quiet connected).xSetNormalHints taking 1 rootWindow sizeHints).map (fun r =>
      (r.1, (r.2.xGetWMNormalHints taking 2 rootWindow).map Prod.fst)) = some (true, some none) := by
    decide +kernel
  obtain ⟨⟨set, d₁⟩, hsome, heq⟩ := Option.map_eq_some_iff.1 hset
  obtain ⟨rfl, hget⟩ := Prod.mk.inj heq
  obtain ⟨d₂, hreturns⟩ := h sizeHints d₁ hsome
  rw [hreturns] at hget
  cases hget

end Desktop

end DemonX

end DemonOS
