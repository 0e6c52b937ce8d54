import DemonOS.Lib.Machine
import DemonOS.Lib.RoundRobin
import DemonOS.Proofs.Network.Reads

/-!
# The addresses that are known

The ARP cache is a table filled in turn: a packet for an address that is there changes its entry in
place, and one for another takes the entry after the last one taken. Along every run of packets the
cache knows just the last four addresses that were not known when a packet for them came, each under
the Ethernet address of the last packet for it (`arp_cache_recent`), an address that has been put
out and has come again like any other.
-/

namespace DemonOS

namespace Network

def arpTable (s : Network) (i : ℕ) : ArpEntry := if h : i < 4 then s.arpCache ⟨i, h⟩ else {}

def arpKey (e : ArpEntry) : Option UInt32 := if e.valid then some e.address else none

def arpSays (m : ℕ → UInt8) (n : ℕ) : Option (UInt32 × Mac) :=
  if arpPacketBytes ≤ n ∧ be16 m 0 = 1 ∧ be16 m 2 = etherTypeIpv4 ∧ m 4 = 6 ∧ m 5 = 4
      ∧ (be16 m 6 = 1 ∨ be16 m 6 = 2) then some (be32 m 14, macAt m 8)
  else none

/-- The network, the addresses that were inserted into its cache, the newest first, and what the
last packet for each address said. -/
structure ArpHistory where
  network : Network
  inserted : List UInt32 := []
  told : UInt32 → Option Mac := fun _ => none

/-- A packet of so many bytes comes. -/
structure ArpArrival where
  bytes : ℕ → UInt8
  length : ℕ

def ArpHistory.step (r : ArpHistory) (p : ArpArrival) : ArpHistory :=
  let network := ((r.network.receiveArp (packetOf p.bytes p.length) p.length).map
    Prod.snd).getD r.network
  match arpSays p.bytes p.length with
  | none => { r with network }
  | some (address, mac) =>
    { network
      inserted := if (r.network.networkArpLookup address).isSome then r.inserted
        else address :: r.inserted
      told := Function.update r.told address (some mac) }

section

variable {s : Network} {m : ℕ → UInt8} {n : ℕ}

theorem receiveArp_eq (s : Network) (m : ℕ → UInt8) (n : ℕ) :
    s.receiveArp (packetOf m n) n
      = some ((arpSays m n).elim (false, s) fun said => (true, s.learnArp said.1 said.2)) := by
  have h := packetOf_has m n
  unfold receiveArp arpSays arpPacketBytes
  by_cases hn : n < 28
  · rw [if_pos hn, if_neg (by omega)]
    rfl
  rw [if_neg hn]
  simp only [readBe16_eq h (show 0 + 2 ≤ n by omega), readBe16_eq h (show 2 + 2 ≤ n by omega),
    readBe16_eq h (show 6 + 2 ≤ n by omega), readBe32_eq h (show 14 + 4 ≤ n by omega),
    readMac_eq h (show 8 + 6 ≤ n by omega), h 4 (by omega), h 5 (by omega), Option.bind_eq_bind,
    Option.bind_some]
  by_cases hkind : be16 m 0 ≠ 1 ∨ be16 m 2 ≠ etherTypeIpv4 ∨ m 4 ≠ 6 ∨ m 5 ≠ 4
  · rw [if_pos hkind, if_neg fun hsays => ?_]
    · rfl
    · obtain ⟨-, h0, h2, h4, h5, -⟩ := hsays
      rcases hkind with hne | hne | hne | hne
      · exact hne h0
      · exact hne h2
      · exact hne h4
      · exact hne h5
  rw [if_neg hkind]
  by_cases hoperation : be16 m 6 ≠ 1 ∧ be16 m 6 ≠ 2
  · rw [if_pos hoperation, if_neg fun hsays => hsays.2.2.2.2.2.elim hoperation.1 hoperation.2]
    rfl
  · simp only [not_or, not_not] at hkind
    rw [if_neg hoperation, if_pos ⟨not_lt.1 hn, hkind.1, hkind.2.1, hkind.2.2.1, hkind.2.2.2,
      (not_and_or.1 hoperation).imp not_not.1 not_not.1⟩]
    rfl

/-! ## The cache is filled in turn -/

structure Caches (s : Network) (inserted : List UInt32) (told : UInt32 → Option Mac) : Prop where
  recent : RoundRobin.Recent 4 arpKey s.arpTable s.arpReplace.val inserted
  macs : ∀ i, (s.arpCache i).valid = true → told (s.arpCache i).address = some (s.arpCache i).mac
  entries : s.arpEntries = min 4 inserted.length

theorem arpTable_val (s : Network) (i : Fin 4) : s.arpTable i = s.arpCache i := dif_pos i.isLt

theorem arpTable_update {t : Network} {i : Fin 4} {e : ArpEntry}
    (h : t.arpCache = Function.update s.arpCache i e) :
    t.arpTable = Function.update s.arpTable i e := by
  funext j
  rw [arpTable, h, Function.update_apply, arpTable]
  split_ifs with hj hsame
  · obtain rfl : j = i := hsame
    exact Function.update_self ..
  · exact Function.update_of_ne (fun heq => hsame (congrArg Fin.val heq)) ..
  · have := i.isLt
    omega
  · rfl

theorem arpKey_eq_some {e : ArpEntry} {address : UInt32} :
    arpKey e = some address ↔ e.valid = true ∧ e.address = address := by
  simp [arpKey]

theorem find_arpTable (s : Network) (address : UInt32) :
    KeyedTable.find 4 arpKey s.arpTable address
      = ((List.finRange 4).find? fun i =>
        (s.arpCache i).valid && (s.arpCache i).address == address).map Fin.val := by
  rw [KeyedTable.find, Table.firstIndex, ← List.map_coe_finRange_eq_range, List.find?_map]
  congr 2
  funext i
  rw [Function.comp_apply, arpTable_val, Bool.eq_iff_iff, decide_eq_true_eq, arpKey_eq_some]
  simp

theorem networkArpLookup_eq (s : Network) (address : UInt32) :
    s.networkArpLookup address
      = (KeyedTable.get 4 arpKey s.arpTable address).map ArpEntry.mac := by
  rw [networkArpLookup, KeyedTable.get, find_arpTable, Option.map_map, Option.map_map]
  congr 1
  funext i
  exact congrArg ArpEntry.mac (arpTable_val s i).symm

variable {inserted : List UInt32} {told : UInt32 → Option Mac}

theorem Caches.lookup_isSome (h : Caches s inserted told) (address : UInt32) :
    (s.networkArpLookup address).isSome = true ↔ address ∈ inserted.take 4 := by
  rw [networkArpLookup_eq, Option.isSome_map]
  exact h.recent.get_isSome_iff

theorem Caches.lookup_mac (h : Caches s inserted told) {address : UInt32} {mac : Mac}
    (hlookup : s.networkArpLookup address = some mac) : told address = some mac := by
  rw [networkArpLookup, Option.map_eq_some_iff] at hlookup
  obtain ⟨i, hi, rfl⟩ := hlookup
  have hhere := List.find?_some hi
  rw [Bool.and_eq_true, beq_iff_eq] at hhere
  rw [← hhere.2]
  exact h.macs i hhere.1

theorem Caches.distinct (h : Caches s inserted told) {i j : Fin 4}
    (hi : (s.arpCache i).valid = true) (hj : (s.arpCache j).valid = true)
    (hsame : (s.arpCache i).address = (s.arpCache j).address) : i = j := by
  refine Fin.ext (h.recent.unique i i.isLt j j.isLt (s.arpCache j).address ?_ ?_)
  · rw [arpTable_val, arpKey_eq_some]
    exact ⟨hi, hsame⟩
  · rw [arpTable_val, arpKey_eq_some]
    exact ⟨hj, rfl⟩

theorem Caches.valid_iff (h : Caches s inserted told) (i : Fin 4) :
    (s.arpCache i).valid = true ↔ i.val < inserted.length := by
  constructor
  · intro hvalid
    by_contra hle
    have hfree := h.recent.free i i.isLt (not_lt.1 hle)
    rw [arpTable_val, arpKey, if_pos hvalid] at hfree
    cases hfree
  · intro hlt
    obtain ⟨-, k, -, -, hk, -⟩ := h.recent.of_lt i.isLt hlt
    rw [arpTable_val, arpKey_eq_some] at hk
    exact hk.1

theorem Caches.refresh (h : Caches s inserted told) {address : UInt32} {i : Fin 4}
    (hi : (s.arpCache i).valid = true) (haddress : (s.arpCache i).address = address) (mac : Mac) :
    Caches { s with arpCache := Function.update s.arpCache i { s.arpCache i with mac := mac } }
      inserted (Function.update told address (some mac)) := by
  refine ⟨?_, fun j hj => ?_, h.entries⟩
  · rw [arpTable_update rfl]
    refine h.recent.change ?_
    rw [arpTable_val]
    rfl
  · dsimp only at hj ⊢
    rcases eq_or_ne j i with rfl | hne
    · rw [Function.update_self, haddress, Function.update_self]
    · rw [Function.update_of_ne hne] at hj ⊢
      have hother : (s.arpCache j).address ≠ address := fun heq =>
        hne (h.distinct hj hi (heq.trans haddress.symm))
      rw [Function.update_of_ne hother]
      exact h.macs j hj

theorem Caches.insert (h : Caches s inserted told) {address : UInt32}
    (hnew : address ∉ inserted.take 4) (mac : Mac) :
    Caches { s with
        arpEntries := if (s.arpCache s.arpReplace).valid then s.arpEntries else s.arpEntries + 1
        arpCache := Function.update s.arpCache s.arpReplace { address, mac, valid := true }
        arpReplace := s.arpReplace + 1 }
      (address :: inserted) (Function.update told address (some mac)) := by
  refine ⟨?_, fun j hj => ?_, ?_⟩
  · rw [arpTable_update rfl]
    have hnext : (s.arpReplace + 1).val = (s.arpReplace.val + 1) % 4 := Fin.val_add ..
    rw [show ({ s with
        arpEntries := if (s.arpCache s.arpReplace).valid then s.arpEntries else s.arpEntries + 1
        arpCache := Function.update s.arpCache s.arpReplace { address, mac, valid := true }
        arpReplace := s.arpReplace + 1 } : Network).arpReplace = s.arpReplace + 1 from rfl, hnext]
    exact h.recent.insert rfl hnew (by omega)
  · dsimp only at hj ⊢
    rcases eq_or_ne j s.arpReplace with rfl | hne
    · rw [Function.update_self, Function.update_self]
    · rw [Function.update_of_ne hne] at hj ⊢
      have hother : (s.arpCache j).address ≠ address := by
        rintro rfl
        refine hnew (h.recent.get_isSome_iff.1 ?_)
        have hkey : arpKey (s.arpTable j) = some (s.arpCache j).address :=
          arpKey_eq_some.2 ⟨by rwa [arpTable_val], by rw [arpTable_val]⟩
        rw [KeyedTable.get_of_slot h.recent.unique j.isLt hkey, Option.isSome_some]
      rw [Function.update_of_ne hother]
      exact h.macs j hj
  · have hnext : s.arpReplace.val = inserted.length % 4 := h.recent.next_eq
    have hvalid := h.valid_iff s.arpReplace
    have hentries := h.entries
    rw [List.length_cons]
    dsimp only
    split_ifs with hold
    · rw [hvalid] at hold
      omega
    · rw [hvalid] at hold
      omega

theorem Caches.learn (h : Caches s inserted told) (address : UInt32) (mac : Mac) :
    Caches (s.learnArp address mac)
      (if (s.networkArpLookup address).isSome then inserted else address :: inserted)
      (Function.update told address (some mac)) := by
  have hlookup := h.lookup_isSome address
  rw [networkArpLookup, Option.isSome_map] at hlookup ⊢
  rw [learnArp]
  rcases hfind : (List.finRange 4).find? fun i =>
    (s.arpCache i).valid && (s.arpCache i).address == address with _ | i
  · rw [hfind] at hlookup
    exact h.insert (by simpa using hlookup) mac
  · have hhere := List.find?_some hfind
    rw [Bool.and_eq_true, beq_iff_eq] at hhere
    exact h.refresh hhere.1 hhere.2 mac

theorem ArpHistory.step_caches (r : ArpHistory) (p : ArpArrival)
    (h : Caches r.network r.inserted r.told) :
    Caches (r.step p).network (r.step p).inserted (r.step p).told := by
  rw [step, receiveArp_eq]
  rcases arpSays p.bytes p.length with _ | ⟨address, mac⟩
  · exact h
  · exact h.learn address mac

/-- After `network_init` and any packets no two entries in use have the same address, `arp_entries`
counts them, and an address is found exactly if it is among the last four that were inserted, with
the Ethernet address that the last packet for it gave. -/
theorem arp_cache_recent (s : Network) (packets : List ArpArrival) :
    let r := Machine.run ArpHistory.step { network := s.networkInit } packets
    (∀ i j, (r.network.arpCache i).valid = true → (r.network.arpCache j).valid = true →
        (r.network.arpCache i).address = (r.network.arpCache j).address → i = j)
      ∧ r.network.arpEntries
        = (List.finRange 4).countP (fun i => (r.network.arpCache i).valid)
      ∧ r.network.arpEntries ≤ 4
      ∧ ∀ address,
        ((r.network.networkArpLookup address).isSome = true ↔ address ∈ r.inserted.take 4)
          ∧ ∀ mac, r.network.networkArpLookup address = some mac
            → r.told address = some mac := by
  intro r
  have h : Caches r.network r.inserted r.told :=
    Machine.run_inv (I := fun r => Caches r.network r.inserted r.told) ArpHistory.step
      ArpHistory.step_caches packets { network := s.networkInit }
      ⟨RoundRobin.recent_nil fun j hj => by simp [arpTable, networkInit, arpKey, hj],
        fun i hi => by simp [networkInit] at hi, rfl⟩
  refine ⟨fun i j => h.distinct, ?_, h.entries ▸ min_le_left ..,
    fun address => ⟨h.lookup_isSome address, fun mac => h.lookup_mac⟩⟩
  · rw [h.entries, ← h.recent.taken, ← List.map_coe_finRange_eq_range, List.countP_map]
    refine List.countP_congr fun i _ => ?_
    rw [Function.comp_apply, arpTable_val, arpKey]
    split_ifs with hvalid <;> simp [hvalid]
end

end Network

end DemonOS
