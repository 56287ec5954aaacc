import Cachecannon.Cluster.Topology
import Cachecannon.Worker.Proof.Redirect
import Mathlib.Data.List.Perm.Basic

/-!
# Every slot goes to the primary of its range

`SlotMapOk` is what a slot map promises: its ranges lie within the slots and no slot is in two of
them. So there are at most 16384 ranges, a primary's number is below the sentinel, and the `u16`
holds it. `Filled` is the invariant of the second pass: the slots of the ranges done have their
primary's number, the others the sentinel.
-/

namespace Cluster

open Intern Worker

def SlotRange.Covers (range : SlotRange) (slot : Nat) : Prop :=
  range.start.toNat ≤ slot ∧ slot ≤ range.endSlot.toNat

structure SlotMapOk (ranges : List SlotRange) : Prop where
  bounds : ∀ range ∈ ranges,
    range.start.toNat ≤ range.endSlot.toNat ∧ range.endSlot.toNat < slotCount
  disjoint : ranges.Pairwise fun a b => ∀ slot, a.Covers slot → ¬ b.Covers slot

/-- The primaries of the ranges, in order. -/
def primaries (ranges : List SlotRange) : List SocketAddr :=
  ranges.filterMap (parseSocketAddr ·.address)

/-- The topology of a slot map: the distinct primaries in order of first appearance, and for each
slot the primary of its range. -/
structure TopologyOf (ranges : List SlotRange) (endpoints : List SocketAddr)
    (table : List UInt16) : Prop where
  order : endpoints.Pairwise fun a b => (primaries ranges).idxOf a < (primaries ranges).idxOf b
  mem : ∀ addr, addr ∈ endpoints ↔ addr ∈ primaries ranges
  length : table.length = slotCount
  below : ∀ idx ∈ table, idx.toNat < endpoints.length
  slot : ∀ range ∈ ranges, ∀ slot, range.Covers slot → ∃ idx addr, table[slot]? = some idx ∧
    endpoints[idx.toNat]? = some addr ∧ parseSocketAddr range.address = some addr
  owns : ∀ i < endpoints.length, ∃ (slot : Nat) (idx : UInt16), table[slot]? = some idx ∧
    idx.toNat = i

theorem SlotRange.mem_slots {range : SlotRange} {slot : Nat} :
    slot ∈ range.slots ↔ range.Covers slot := by
  rw [SlotRange.slots, List.mem_range'_1, SlotRange.Covers]
  omega

/-- Ranges that do not overlap have distinct first slots. -/
theorem SlotMapOk.length_le {ranges : List SlotRange} (h : SlotMapOk ranges) :
    ranges.length ≤ slotCount := by
  have hnodup : (ranges.map fun range => range.start.toNat).Nodup := by
    refine List.pairwise_map.2 (h.disjoint.imp_of_mem fun ha hb hdisjoint heq => ?_)
    refine hdisjoint _ ⟨le_rfl, (h.bounds _ ha).1⟩ ⟨heq.ge, ?_⟩
    rw [heq]
    exact (h.bounds _ hb).1
  have hsub : (ranges.map fun range => range.start.toNat) ⊆ List.range slotCount := by
    intro start hstart
    obtain ⟨range, hmem, rfl⟩ := List.mem_map.1 hstart
    obtain ⟨hle, hlt⟩ := h.bounds range hmem
    exact List.mem_range.2 (hle.trans_lt hlt)
  have hle := (List.subperm_of_subset hnodup hsub).length_le
  rwa [List.length_map, List.length_range] at hle

/-! ## The first pass -/

variable {ranges : List SlotRange} {t : Table SocketAddr}

theorem primaries_cons {range : SlotRange} {addr : SocketAddr}
    (haddr : parseSocketAddr range.address = some addr) :
    primaries (range :: ranges) = addr :: primaries ranges :=
  List.filterMap_cons_some haddr

theorem collectEndpoints_ok {seen : List SocketAddr} (h : t.Ok seen)
    (hparse : ∀ range ∈ ranges, (parseSocketAddr range.address).isSome) :
    ∃ t', collectEndpoints ranges t = .ok t' ∧ t'.Ok (seen ++ primaries ranges) := by
  induction ranges generalizing t seen with
  | nil => exact ⟨t, rfl, by simpa [primaries] using h⟩
  | cons range ranges ih =>
    obtain ⟨addr, haddr⟩ := Option.isSome_iff_exists.1 (hparse range List.mem_cons_self)
    obtain ⟨t', ht', hok⟩ := ih (h.intern addr) fun r hr => hparse r (List.mem_cons_of_mem _ hr)
    refine ⟨t', by rw [collectEndpoints, haddr]; exact ht', ?_⟩
    rw [primaries_cons haddr, List.append_cons]
    exact hok

theorem collectEndpoints_error
    (hparse : ∃ range ∈ ranges, parseSocketAddr range.address = none) :
    ∃ e, collectEndpoints ranges t = .error e := by
  induction ranges generalizing t with
  | nil =>
    obtain ⟨range, hmem, -⟩ := hparse
    cases hmem
  | cons range ranges ih =>
    rw [collectEndpoints]
    split
    · exact ⟨_, rfl⟩
    · rename_i addr haddr
      obtain ⟨bad, hmem, hnone⟩ := hparse
      rcases List.mem_cons.1 hmem with rfl | hmem
      · rw [haddr] at hnone
        cases hnone
      · exact ih ⟨bad, hmem, hnone⟩

/-! ## The second pass -/

theorem assignSlots_spec {slots : List Nat} (idx : Nat) (table : List UInt16)
    (hslots : ∀ slot ∈ slots, slot < table.length) :
    ∃ table', assignSlots idx slots table = some table' ∧ table'.length = table.length ∧
      (∀ slot ∈ slots, table'[slot]? = some (UInt16.ofNat idx)) ∧
      ∀ slot, slot ∉ slots → table'[slot]? = table[slot]? := by
  induction slots generalizing table with
  | nil => exact ⟨table, rfl, rfl, nofun, fun _ _ => rfl⟩
  | cons first slots ih =>
    have hfirst := hslots first List.mem_cons_self
    obtain ⟨table', hrun, hlength, hin, hout⟩ := ih (table.set first (UInt16.ofNat idx))
      fun slot hslot => by
        rw [List.length_set]
        exact hslots slot (List.mem_cons_of_mem _ hslot)
    refine ⟨table', ?_, hlength.trans List.length_set, fun slot hslot => ?_,
      fun slot hslot => ?_⟩
    · rw [assignSlots, List.foldlM_cons, setSlot, if_pos hfirst]
      exact hrun
    · by_cases hagain : slot ∈ slots
      · exact hin slot hagain
      · obtain rfl := (List.mem_cons.1 hslot).resolve_right hagain
        rw [hout slot hagain, List.getElem?_set_self hfirst]
    · obtain ⟨hne, hnot⟩ := not_or.1 (mt List.mem_cons.2 hslot)
      rw [hout slot hnot, List.getElem?_set_ne (Ne.symm hne)]

structure Filled (index : List (SocketAddr × Nat)) (done : List SlotRange)
    (table : List UInt16) : Prop where
  length : table.length = slotCount
  assigned : ∀ range ∈ done, ∀ slot, range.Covers slot → ∃ addr idx,
    parseSocketAddr range.address = some addr ∧ index.lookup addr = some idx ∧
      table[slot]? = some (UInt16.ofNat idx)
  rest : ∀ slot < slotCount, (∀ range ∈ done, ¬ range.Covers slot) →
    table[slot]? = some unassigned

variable {index : List (SocketAddr × Nat)} {done : List SlotRange} {table : List UInt16}

theorem filled_start (index : List (SocketAddr × Nat)) :
    Filled index [] (List.replicate slotCount unassigned) where
  length := List.length_replicate
  assigned := nofun
  rest := fun slot hslot _ => by rw [List.getElem?_replicate, if_pos hslot]

theorem filled_range {range : SlotRange} {addr : SocketAddr} {idx : Nat}
    (h : Filled index done table) (hbound : range.endSlot.toNat < slotCount)
    (hdisjoint : ∀ earlier ∈ done, ∀ slot, earlier.Covers slot → ¬ range.Covers slot)
    (haddr : parseSocketAddr range.address = some addr) (hidx : index.lookup addr = some idx) :
    ∃ table', assignSlots idx range.slots table = some table' ∧
      Filled index (done ++ [range]) table' := by
  obtain ⟨table', hrun, hlength, hin, hout⟩ := assignSlots_spec idx table
    fun slot hslot => by
      rw [h.length]
      exact (SlotRange.mem_slots.1 hslot).2.trans_lt hbound
  refine ⟨table', hrun, hlength.trans h.length, fun r hr slot hcovers => ?_,
    fun slot hslot hnone => ?_⟩
  · rcases List.mem_append.1 hr with hr | hr
    · -- an earlier range, whose slots this one leaves alone
      obtain ⟨addr', idx', haddr', hidx', hslot⟩ := h.assigned r hr slot hcovers
      refine ⟨addr', idx', haddr', hidx', ?_⟩
      rw [hout slot fun hslot => hdisjoint r hr slot hcovers (SlotRange.mem_slots.1 hslot)]
      exact hslot
    · obtain rfl := List.mem_singleton.1 hr
      exact ⟨addr, idx, haddr, hidx, hin slot (SlotRange.mem_slots.2 hcovers)⟩
  · have hlast := hnone range (List.mem_append_right done List.mem_cons_self)
    rw [hout slot fun hslot => hlast (SlotRange.mem_slots.1 hslot)]
    exact h.rest slot hslot fun r hr => hnone r (List.mem_append_left _ hr)

theorem fillTable_filled (h : Filled index done table)
    (hbounds : ∀ range ∈ ranges, range.endSlot.toNat < slotCount)
    (hdisjoint : (done ++ ranges).Pairwise fun a b => ∀ slot, a.Covers slot → ¬ b.Covers slot)
    (hindex : ∀ range ∈ ranges, ∃ addr idx, parseSocketAddr range.address = some addr ∧
      index.lookup addr = some idx) :
    ∃ table', fillTable index ranges table = some (.ok table') ∧
      Filled index (done ++ ranges) table' := by
  induction ranges generalizing done table with
  | nil => exact ⟨table, rfl, by simpa using h⟩
  | cons range ranges ih =>
    obtain ⟨addr, idx, haddr, hidx⟩ := hindex range List.mem_cons_self
    have hearlier := (List.pairwise_append.1 hdisjoint).2.2
    obtain ⟨table₁, hassign, hfilled⟩ := filled_range h (hbounds range List.mem_cons_self)
      (fun r hr => hearlier r hr range List.mem_cons_self) haddr hidx
    rw [List.append_cons] at hdisjoint
    obtain ⟨table', hrun, hdone⟩ := ih hfilled
      (fun r hr => hbounds r (List.mem_cons_of_mem _ hr)) hdisjoint
      fun r hr => hindex r (List.mem_cons_of_mem _ hr)
    refine ⟨table', ?_, by rwa [List.append_cons]⟩
    rw [fillTable, haddr]
    show ((index.lookup addr).bind fun idx => (assignSlots idx range.slots table).bind
      (fillTable index ranges)) = _
    rw [hidx, Option.bind_some, hassign, Option.bind_some, hrun]

/-! ## Both passes -/

/-- What the passes leave when every address parses. -/
structure Passes (ranges : List SlotRange) (t : Table SocketAddr) (table : List UInt16) :
    Prop where
  ok : SlotMapOk ranges
  endpoints : t.Ok (primaries ranges)
  filled : Filled t.index ranges table

theorem mem_primaries {range : SlotRange} {addr : SocketAddr} (hmem : range ∈ ranges)
    (haddr : parseSocketAddr range.address = some addr) : addr ∈ primaries ranges :=
  List.mem_filterMap.2 ⟨range, hmem, haddr⟩

/-- A number given to a primary is below the number of primaries, and fits in the table. -/
theorem Passes.idx_lt (h : Passes ranges t table) {addr : SocketAddr} {idx : Nat}
    (hidx : t.index.lookup addr = some idx) :
    idx < t.items.length ∧ (UInt16.ofNat idx).toNat = idx ∧ UInt16.ofNat idx ≠ unassigned := by
  have hlt := (List.getElem?_eq_some_iff.1 ((h.endpoints.lookup addr idx).1 hidx)).1
  have hcount : t.items.length ≤ 16384 :=
    h.endpoints.length_le.trans ((List.length_filterMap_le _ _).trans h.ok.length_le)
  have hcast : (UInt16.ofNat idx).toNat = idx := by
    rw [UInt16.toNat_ofNat']
    exact Nat.mod_eq_of_lt (by omega)
  refine ⟨hlt, hcast, fun heq => ?_⟩
  rw [heq] at hcast
  have hsentinel : unassigned.toNat = 65535 := rfl
  omega

/-- With every slot covered, an entry of the table is the number of a primary. -/
theorem Passes.entry (h : Passes ranges t table)
    (hall : ∀ slot < slotCount, ∃ range ∈ ranges, range.Covers slot) {entry : UInt16}
    (hentry : entry ∈ table) : entry.toNat < t.items.length ∧ entry ≠ unassigned := by
  obtain ⟨slot, hslot⟩ := List.mem_iff_getElem?.1 hentry
  have hlt : slot < slotCount := by
    rw [← h.filled.length]
    exact (List.getElem?_eq_some_iff.1 hslot).1
  obtain ⟨range, hrange, hcovers⟩ := hall slot hlt
  obtain ⟨addr, idx, -, hidx, hassigned⟩ := h.filled.assigned range hrange slot hcovers
  obtain ⟨hbelow, hcast, hne⟩ := h.idx_lt hidx
  rw [hslot, Option.some.injEq] at hassigned
  rw [hassigned, hcast]
  exact ⟨hbelow, hne⟩

/-- No entry is the sentinel exactly when the ranges cover all slots. -/
theorem Passes.count_unassigned (h : Passes ranges t table) :
    table.count unassigned = 0 ↔ ∀ slot < slotCount, ∃ range ∈ ranges, range.Covers slot := by
  rw [List.count_eq_zero]
  constructor
  · intro hnone slot hslot
    by_contra hcovers
    have hrest := h.filled.rest slot hslot fun range hmem hc => hcovers ⟨range, hmem, hc⟩
    exact hnone (List.mem_of_getElem? hrest)
  · intro hall hmem
    exact (h.entry hall hmem).2 rfl

theorem Passes.topologyOf (h : Passes ranges t table) (hcount : table.count unassigned = 0) :
    TopologyOf ranges t.items table where
  order := h.endpoints.order
  mem := h.endpoints.mem
  length := h.filled.length
  below _ hentry := (h.entry (h.count_unassigned.1 hcount) hentry).1
  slot := by
    intro range hrange slot hcovers
    obtain ⟨addr, idx, haddr, hidx, hslot⟩ := h.filled.assigned range hrange slot hcovers
    refine ⟨UInt16.ofNat idx, addr, hslot, ?_, haddr⟩
    rw [(h.idx_lt hidx).2.1]
    exact (h.endpoints.lookup addr idx).1 hidx
  owns := by
    intro i hi
    -- the range that the primary was first seen in begins with a slot of its own
    have hitem : t.items[i]? = some t.items[i] := List.getElem?_eq_getElem hi
    have hseen := (h.endpoints.mem _).1 (List.getElem_mem hi)
    obtain ⟨range, hrange, haddr⟩ := List.mem_filterMap.1 hseen
    obtain ⟨addr, idx, haddr', hidx, hslot⟩ := h.filled.assigned range hrange range.start.toNat
      ⟨le_rfl, (h.ok.bounds range hrange).1⟩
    rw [haddr, Option.some.injEq] at haddr'
    have hlookup := (h.endpoints.lookup _ i).2 hitem
    rw [haddr', hidx, Option.some.injEq] at hlookup
    refine ⟨range.start.toNat, UInt16.ofNat idx, hslot, ?_⟩
    rw [(h.idx_lt hidx).2.1, hlookup]

/-- The passes, when every address parses. -/
theorem buildTables_passes (hok : SlotMapOk ranges)
    (hparse : ∀ range ∈ ranges, (parseSocketAddr range.address).isSome) :
    ∃ t table, Passes ranges t table ∧
      buildTables ranges = some (if 0 < table.count unassigned then
        .error (unmappedError (table.count unassigned)) else .ok (t.items, table)) := by
  obtain ⟨t, hcollect, ht⟩ := collectEndpoints_ok Table.ok_empty hparse
  rw [List.nil_append] at ht
  have hindex : ∀ range ∈ ranges, ∃ addr idx, parseSocketAddr range.address = some addr ∧
      t.index.lookup addr = some idx := by
    intro range hrange
    obtain ⟨addr, haddr⟩ := Option.isSome_iff_exists.1 (hparse range hrange)
    have hsome := (ht.lookup_isSome addr).2 (mem_primaries hrange haddr)
    obtain ⟨idx, hidx⟩ := Option.isSome_iff_exists.1 hsome
    exact ⟨addr, idx, haddr, hidx⟩
  obtain ⟨table, hfill, hfilled⟩ := fillTable_filled (filled_start t.index)
    (fun range hrange => (hok.bounds range hrange).2) hok.disjoint hindex
  refine ⟨t, table, ⟨hok, ht, hfilled⟩, ?_⟩
  rw [buildTables, hcollect]
  show ((fillTable t.index ranges (List.replicate slotCount unassigned)).bind _) = _
  rw [hfill, Option.bind_some]
  dsimp only
  split <;> rfl

theorem buildTables_error (hparse : ∃ range ∈ ranges, parseSocketAddr range.address = none) :
    ∃ e, buildTables ranges = some (.error e) := by
  obtain ⟨e, he⟩ := collectEndpoints_error (t := .empty) hparse
  refine ⟨e, ?_⟩
  rw [buildTables, he]

/-- A topology's table is one that a worker can route with. -/
theorem TopologyOf.routable {endpoints : List SocketAddr} (h : TopologyOf ranges endpoints table) :
    Routable endpoints table :=
  ⟨h.length, h.below⟩

/-- **The topology of a cluster.** A slot map whose ranges are within bounds and do not overlap is
accepted exactly when all addresses parse and all slots are covered, and the topology is then that
of the map. -/
theorem buildTopology_spec {ρ : Type} {fromClusterSlots : ρ → Option (List SlotRange)} {reply : ρ}
    {ranges : List SlotRange} (hmap : fromClusterSlots reply = some ranges) (hne : ranges ≠ [])
    (hok : SlotMapOk ranges) :
    ∃ result, buildTopology fromClusterSlots (.reply reply) = some result ∧
      ((∃ topology, result = .ok topology) ↔
        (∀ range ∈ ranges, (parseSocketAddr range.address).isSome) ∧
        ∀ slot < slotCount, ∃ range ∈ ranges, range.Covers slot) ∧
      ∀ endpoints table, result = .ok (endpoints, table) →
        TopologyOf ranges endpoints table ∧ Routable endpoints table := by
  have hbuild : buildTopology fromClusterSlots (.reply reply) = buildTables ranges := by
    simp only [buildTopology, hmap]
    exact if_neg (by simpa using hne)
  by_cases hparse : ∀ range ∈ ranges, (parseSocketAddr range.address).isSome
  · obtain ⟨t, table, hpasses, hrun⟩ := buildTables_passes hok hparse
    refine ⟨_, hbuild.trans hrun, ?_, fun endpoints table' hresult => ?_⟩
    · rw [← hpasses.count_unassigned]
      rcases Nat.eq_zero_or_pos (table.count unassigned) with hzero | hpos
      · rw [if_neg (by omega)]
        exact iff_of_true ⟨_, rfl⟩ ⟨hparse, hzero⟩
      · rw [if_pos hpos]
        exact iff_of_false nofun fun hall => by omega
    · split at hresult
      · cases hresult
      · cases hresult
        have htopology := hpasses.topologyOf (by omega)
        exact ⟨htopology, htopology.routable⟩
  · have hbad : ∃ range ∈ ranges, parseSocketAddr range.address = none := by
      simpa using hparse
    obtain ⟨e, hrun⟩ := buildTables_error hbad
    exact ⟨_, hbuild.trans hrun, iff_of_false nofun fun hall => hparse hall.1, nofun⟩

/-- Three ranges of two primaries, out of order. -/
def threeRanges : List SlotRange :=
  [⟨10923, 16383, "10.0.0.2:6379".toList⟩, ⟨0, 5460, "10.0.0.1:6379".toList⟩,
    ⟨5461, 10922, "10.0.0.2:6379".toList⟩]

theorem threeRanges_ok : SlotMapOk threeRanges where
  bounds := by decide
  disjoint := by
    simp only [threeRanges, List.pairwise_cons, List.mem_cons, List.not_mem_nil, or_false,
      SlotRange.Covers]
    refine ⟨?_, ?_, nofun, .nil⟩
    · rintro b (rfl | rfl) slot <;> intro ha hb <;> simp at ha hb <;> omega
    · rintro b rfl slot ha hb
      simp at ha hb
      omega

theorem threeRanges_covered (slot : Nat) (hslot : slot < slotCount) :
    ∃ range ∈ threeRanges, range.Covers slot := by
  have hbound : slot ≤ 16383 := Nat.le_of_lt_succ hslot
  by_cases hfirst : slot ≤ 5460
  · exact ⟨_, .tail _ (.head _), Nat.zero_le _, hfirst⟩
  by_cases hsecond : slot ≤ 10922
  · exact ⟨_, .tail _ (.tail _ (.head _)), Nat.lt_of_not_le hfirst, hsecond⟩
  · exact ⟨_, .head _, Nat.lt_of_not_le hsecond, hbound⟩

/-- The second primary is first in order and has the slots of two ranges. -/
theorem buildTopology_spec_threeRanges : ∃ endpoints table,
    buildTopology (fun _ : Unit => some threeRanges) (.reply ()) = some (.ok (endpoints, table)) ∧
      TopologyOf threeRanges endpoints table ∧ Routable endpoints table := by
  have hreply : (fun _ : Unit => some threeRanges) () = some threeRanges := rfl
  obtain ⟨result, hrun, hiff, htopology⟩ :=
    buildTopology_spec hreply (List.cons_ne_nil _ _) threeRanges_ok
  obtain ⟨⟨endpoints, table⟩, rfl⟩ := hiff.2 ⟨by decide, threeRanges_covered⟩
  exact ⟨endpoints, table, hrun, htopology endpoints table rfl⟩

end Cluster
