import Cachecannon.Config.Validate
import Cachecannon.Lib.Split
import Cachecannon.Worker.Partition
import Cachecannon.Worker.Proof.KeyShare

/-!
# Every node has its connections

The four places that split connections over workers compute the same split (`SplitAgrees`), and what
`Config::validate` and `check_node_counts` ask for is enough that no node is left without a
connection to drain its queue (`Covers`).
-/

namespace Worker

/-! ## The split -/

section Share

variable {total threads : Nat}

theorem connectionShare_eq (h : 1 ≤ threads) (w : Nat) :
    connectionShare total threads w =
      (Split.share total threads w, Split.start total threads w) := by
  simp only [connectionShare, Nat.max_eq_left h]
  rfl

theorem connectionsPerWorker_eq (h : 1 ≤ threads) :
    Runner.connectionsPerWorker total threads = Split.share total threads 0 := by
  simp only [Runner.connectionsPerWorker, Nat.max_eq_left h]
  rfl

/-- The computations of the split agree on a worker's share and its first connection; the slices
tile the connections, in order; the busiest worker has `connections_per_worker`. -/
structure SplitAgrees (total threads : Nat) : Prop where
  share : ∀ w, myConnections total threads w = (connectionShare total threads w).1
  start : ∀ w, myStart total threads w = (connectionShare total threads w).2
  weights : Runner.limiterWeights total threads =
    (List.range threads).map (myConnections total threads)
  tile : ((List.range threads).flatMap fun w => List.range' (connectionShare total threads w).2
    (connectionShare total threads w).1) = List.range total
  contiguous : ∀ w, (connectionShare total threads (w + 1)).2 =
    (connectionShare total threads w).2 + (connectionShare total threads w).1
  le_largest : ∀ w, (connectionShare total threads w).1 ≤ Runner.connectionsPerWorker total threads
  largest : ∃ w < threads,
    (connectionShare total threads w).1 = Runner.connectionsPerWorker total threads

theorem splitAgrees (h : 1 ≤ threads) : SplitAgrees total threads where
  share w := by
    rw [connectionShare_eq h]
    rfl
  start w := by
    rw [connectionShare_eq h]
    rfl
  weights := by
    apply List.map_congr_left
    intro w _
    rw [connectionShare_eq h]
    rfl
  tile := by
    simp only [connectionShare_eq h]
    exact Split.flatMap_slices h
  contiguous w := by
    rw [connectionShare_eq h, connectionShare_eq h]
    exact Split.start_succ w
  le_largest w := by
    rw [connectionShare_eq h, connectionsPerWorker_eq h]
    exact Split.share_le_first w
  largest := by
    refine ⟨0, h, ?_⟩
    rw [connectionShare_eq h, connectionsPerWorker_eq h]

end Share

/-! ## Slices of the assignment -/

section Slices

variable {cfg : Config} {sampler : Option (List ℚ)} {assignment : List Nat}

/-- Every connection has an endpoint. -/
theorem connectionEndpoints_length {allocation : Config.EndpointAllocation} {total n : Nat}
    (h : connectionEndpoints allocation sampler total n = some assignment) :
    assignment.length = total := by
  unfold connectionEndpoints at h
  split at h
  · exact (keyShareEndpoints_spec h).1
  · split at h <;> cases h
    simp

theorem connectionEndpoints_isSome (allocation : Config.EndpointAllocation)
    (sampler : Option (List ℚ)) {total n : Nat} (hn : n ≠ 0) (h : vecFits 16 total) :
    (connectionEndpoints allocation sampler total n).isSome := by
  unfold connectionEndpoints
  split
  · exact keyShareEndpoints_isSome _ h
  · simp [vecFits_of_le h (by decide : 8 ≤ 16), hn]

/-- Without shares, or with the even allocation, endpoints go round robin. -/
theorem connectionEndpoints_roundRobin {allocation : Config.EndpointAllocation} {total n : Nat}
    (hallocation : allocation ≠ .keyShare ∨ sampler = none)
    (h : connectionEndpoints allocation sampler total n = some assignment) :
    assignment = (List.range total).map (· % n) ∧ vecFits 8 total := by
  unfold connectionEndpoints at h
  split at h
  · simp at hallocation
  · split at h <;> cases h
    rename_i hfits
    exact ⟨rfl, (Bool.and_eq_true_iff.1 hfits).1⟩

/-- The endpoint of every connection of the run. -/
def runAssignment (cfg : Config) (sampler : Option (List ℚ)) : Option (List Nat) :=
  connectionEndpoints cfg.connection.endpointAllocation sampler cfg.connection.totalConnections
    cfg.target.endpoints.length

/-- A worker's endpoints are its slice of the assignment. -/
theorem workerEndpoints_eq (hthreads : 1 ≤ cfg.general.threads)
    (h : runAssignment cfg sampler = some assignment) {w : Nat} (hw : w < cfg.general.threads) :
    workerEndpoints cfg sampler w = some
      ((assignment.drop (Split.start cfg.connection.totalConnections cfg.general.threads w)).take
        (Split.share cfg.connection.totalConnections cfg.general.threads w)) := by
  have hfits : Split.start cfg.connection.totalConnections cfg.general.threads w +
      Split.share cfg.connection.totalConnections cfg.general.threads w ≤ assignment.length := by
    rw [connectionEndpoints_length h]
    exact Split.start_add_share_le hthreads hw
  have hstart : myStart cfg.connection.totalConnections cfg.general.threads w =
      Split.start cfg.connection.totalConnections cfg.general.threads w := rfl
  have hshare : myConnections cfg.connection.totalConnections cfg.general.threads w =
      Split.share cfg.connection.totalConnections cfg.general.threads w := rfl
  rw [runAssignment] at h
  simp only [workerEndpoints, myConnectionEndpoints, h, hstart, hshare, Option.bind_eq_bind,
    Option.bind_some]
  rw [if_pos hfits]
  rfl

theorem length_slice (hthreads : 1 ≤ cfg.general.threads)
    (h : runAssignment cfg sampler = some assignment) {w : Nat} (hw : w < cfg.general.threads) :
    ((assignment.drop (Split.start cfg.connection.totalConnections cfg.general.threads w)).take
      (Split.share cfg.connection.totalConnections cfg.general.threads w)).length =
        Split.share cfg.connection.totalConnections cfg.general.threads w := by
  have hend : Split.start cfg.connection.totalConnections cfg.general.threads w +
      Split.share cfg.connection.totalConnections cfg.general.threads w ≤
        cfg.connection.totalConnections := Split.start_add_share_le hthreads hw
  rw [List.length_take, List.length_drop, connectionEndpoints_length h]
  omega

theorem mem_slice {first len k e : Nat} (hk : assignment[k]? = some e) (hle : first ≤ k)
    (hlt : k < first + len) : e ∈ (assignment.drop first).take len := by
  refine List.mem_of_getElem? (i := k - first) ?_
  rw [List.getElem?_take_of_lt (by omega), List.getElem?_drop, Nat.add_sub_cancel' hle]
  exact hk

/-- An endpoint that a connection serves is served by a worker. -/
theorem exists_worker (hthreads : 1 ≤ cfg.general.threads)
    (h : runAssignment cfg sampler = some assignment) {e : Nat} (he : e ∈ assignment) :
    ∃ w < cfg.general.threads, ∃ slice, workerEndpoints cfg sampler w = some slice ∧ e ∈ slice := by
  obtain ⟨k, hk⟩ := List.mem_iff_getElem?.1 he
  obtain ⟨hlt, -⟩ := List.getElem?_eq_some_iff.1 hk
  rw [connectionEndpoints_length h] at hlt
  obtain ⟨w, hw, hle, hlt⟩ := Split.exists_slice hthreads hlt
  exact ⟨w, hw, _, workerEndpoints_eq hthreads h hw, mem_slice hk hle hlt⟩

end Slices

/-! ## What the checks ask for -/

/-- The counts that `check_node_counts` asks for. The product is computed without overflow, or else
there are `usize::MAX` connections. -/
theorem checkNodeCounts_ok {cfg : Config} {n : Nat} (h : Runner.checkNodeCounts cfg n = .ok ())
    (hn : 2 ≤ n) :
    (cfg.workload.prefill → n ≤ cfg.connection.totalConnections) ∧
      (cfg.workload.routing = .routed →
        min (cfg.general.threads * n) (2 ^ 64 - 1) ≤ cfg.connection.totalConnections) ∧
      ∀ append, cfg.workload.append = some append → n ≤ append.connections := by
  unfold Runner.checkNodeCounts at h
  simp only at h
  split at h
  · cases h
  · split at h
    · cases h
    · split at h
      · cases h
      · rename_i hprefill hrouted happend
        refine ⟨fun hp => ?_, fun hr => ?_, fun append ha => ?_⟩
        · by_contra hlt
          exact hprefill ⟨hp, by omega, by omega⟩
        · by_contra hlt
          exact hrouted ⟨hr, by omega, by simpa [Runner.saturatingMul] using hlt⟩
        · by_contra hlt
          rw [ha] at happend
          simp only [Option.any_some, Bool.and_eq_true, decide_eq_true_eq, not_and] at happend
          exact happend (by omega) (by omega)

/-- What the checks leave of a run's configuration. -/
structure Checked (cfg : Config) : Prop where
  threads : 1 ≤ cfg.general.threads
  nodes : 1 ≤ cfg.target.endpoints.length
  routed : cfg.workload.routing = .routed → cfg.connection.endpointAllocation ≠ .keyShare ∧
    (2 ≤ cfg.target.endpoints.length →
      min (cfg.general.threads * cfg.target.endpoints.length) (2 ^ 64 - 1) ≤
        cfg.connection.totalConnections)
  prefill : cfg.workload.prefill →
    cfg.target.endpoints.length ≤ cfg.connection.totalConnections
  append : ∀ append, cfg.workload.append = some append →
    cfg.target.endpoints.length ≤ append.connections ∧ cfg.target.protocol ≠ .ping ∧
      cfg.target.protocol ≠ .dma

/-- Validation sees the seeds, and the nodes found are checked after it. -/
theorem checked {fmt : Config.F64Format} {cfg : Config} {dmaFeature : Bool}
    {nodes : List SocketAddr} (haccepted : cfg.validate fmt dmaFeature = .ok ())
    (hcounts : Runner.checkNodeCounts (Runner.withEndpoints cfg nodes) nodes.length = .ok ())
    (hnodes : 1 ≤ nodes.length) : Checked (Runner.withEndpoints cfg nodes) where
  threads := show 1 ≤ cfg.general.threads from Config.accepted_threads haccepted
  nodes := hnodes
  routed hrouted := by
    have heven := Config.accepted_routed haccepted hrouted
    exact ⟨heven, fun hn => (checkNodeCounts_ok hcounts hn).2.1 hrouted⟩
  prefill hprefill := by
    by_cases hn : 2 ≤ nodes.length
    · exact (checkNodeCounts_ok hcounts hn).1 hprefill
    · have hpos := Config.accepted_connections haccepted
      have hone : nodes.length ≤ 1 := by omega
      exact hone.trans hpos
  append append happend := by
    obtain ⟨hpos, hprotocol⟩ := Config.accepted_append haccepted happend
    refine ⟨?_, hprotocol⟩
    by_cases hn : 2 ≤ nodes.length
    · exact (checkNodeCounts_ok hcounts hn).2.2 append happend
    · have hone : nodes.length ≤ 1 := by omega
      exact hone.trans hpos

section Keys

variable {hashSlot ring : List UInt8 → Nat} {format : Config.KeyFormat} {keyCount keyLen : Nat}
  {nodes : List SocketAddr} {slotTable : Option (List UInt16)} {queues : List (List Nat)}
  {keys : List (List UInt32)}
  (hqueues : Partition.buildPrefillQueues hashSlot ring format keyCount keyLen nodes slotTable =
    some queues)
  (hkeys : Partition.buildEndpointKeys hashSlot ring format keyCount keyLen nodes slotTable =
    some keys)
  {e : Nat} {queue : List Nat} (hqueue : queues[e]? = some queue) (hne : queue ≠ [])

include hqueues hkeys hqueue hne

/-- An endpoint with a prefill queue owns keys. -/
theorem endpointKeys_ne_nil (hn : 2 ≤ nodes.length) : ∃ ids, keys[e]? = some ids ∧ ids ≠ [] := by
  simp only [Partition.buildPrefillQueues, Nat.max_eq_left (Nat.le_of_lt hn)] at hqueues
  simp only [Partition.buildEndpointKeys] at hkeys
  have hmap := Buckets.distribute_map (routeId hashSlot ring format slotTable nodes.length keyLen)
    id UInt32.ofNat nodes.length (List.range keyCount)
  rw [if_neg (by omega)] at hkeys
  rw [hqueues] at hmap
  have heq : keys = queues.map (List.map UInt32.ofNat) := Option.some.inj (hkeys.symm.trans hmap)
  refine ⟨queue.map UInt32.ofNat, ?_, by simpa using hne⟩
  rw [heq, List.getElem?_map, hqueue]
  rfl

/-- The sampler of a run has a share for every node, positive for one with a prefill queue. -/
theorem sampler_share_pos {weight : UInt32 → ℚ} {dist : Config.Distribution}
    (hweight : ∀ id, 0 < weight id) {shares : List ℚ}
    (hshares : endpointSampler weight dist keys = some shares) :
    shares.length = nodes.length ∧ 0 < shares.getD e 0 := by
  unfold endpointSampler at hshares
  split at hshares <;> cases hshares
  rename_i hzipf
  obtain ⟨-, hseveral⟩ := hzipf
  have hn : 2 ≤ nodes.length := by
    by_contra hone
    simp only [Partition.buildEndpointKeys, if_pos (show nodes.length ≤ 1 by omega)] at hkeys
    cases hkeys
    exact absurd hseveral (by simp)
  obtain ⟨ids, hids, hids_ne⟩ := endpointKeys_ne_nil hqueues hkeys hqueue hne hn
  refine ⟨?_, endpointShares_pos hweight hids hids_ne⟩
  simp only [Partition.buildEndpointKeys] at hkeys
  rw [if_neg (by omega)] at hkeys
  simpa [endpointShares] using Buckets.length_distribute hkeys

end Keys

/-! ## Coverage -/

/-- What the connections of a run reach. The assignment is computed unless the `Vec` that holds it
is too large; where it is, each worker has its slice. -/
structure Covers (cfg : Config) (sampler : Option (List ℚ)) (queues : List (List Nat)) : Prop where
  assigned : vecFits 16 cfg.connection.totalConnections →
    (runAssignment cfg sampler).isSome
  /-- Every worker has as many connections as its share. -/
  slices : ∀ assignment, runAssignment cfg sampler = some assignment →
    ∀ w < cfg.general.threads, ∃ slice, workerEndpoints cfg sampler w = some slice ∧
      slice.length = (connectionShare cfg.connection.totalConnections cfg.general.threads w).1
  /-- Every worker of a routed run has a connection to every node. -/
  routed : cfg.workload.routing = .routed → 2 ≤ cfg.target.endpoints.length →
    ∀ assignment, runAssignment cfg sampler = some assignment →
    ∀ w < cfg.general.threads, ∃ slice, workerEndpoints cfg sampler w = some slice ∧
      ∀ e < cfg.target.endpoints.length, e ∈ slice
  /-- Every prefill queue that is not empty has a connection of some worker. -/
  prefill : cfg.workload.prefill →
    ∀ assignment, runAssignment cfg sampler = some assignment →
    ∀ e queue, queues[e]? = some queue → queue ≠ [] →
      ∃ w < cfg.general.threads, ∃ slice, workerEndpoints cfg sampler w = some slice ∧ e ∈ slice
  /-- Every node has a writer of some worker. -/
  append : cfg.workload.append.isSome → ∀ e < cfg.target.endpoints.length,
    ∃ w < cfg.general.threads, e ∈ appendWriters cfg w

section Cover

variable {cfg : Config} (hcfg : Checked cfg) {sampler : Option (List ℚ)} {assignment : List Nat}

include hcfg

/-- A slice of a routed run has a connection for each node: an assignment that fits was not checked
against a product that overflowed. -/
theorem routed_slice (hrouted : cfg.workload.routing = .routed)
    (hn : 2 ≤ cfg.target.endpoints.length) (h : runAssignment cfg sampler = some assignment)
    {w : Nat} (hw : w < cfg.general.threads) :
    ∃ slice, workerEndpoints cfg sampler w = some slice ∧
      ∀ e < cfg.target.endpoints.length, e ∈ slice := by
  obtain ⟨heven, hmin⟩ := hcfg.routed hrouted
  obtain ⟨rfl, hfits⟩ := connectionEndpoints_roundRobin (.inl heven) h
  have htotal : cfg.general.threads * cfg.target.endpoints.length ≤
      cfg.connection.totalConnections := by
    have hmin := hmin hn
    have hlt : 8 * cfg.connection.totalConnections ≤ 2 ^ 63 - 1 := by simpa [vecFits] using hfits
    omega
  refine ⟨_, workerEndpoints_eq hcfg.threads h hw, fun e he => ?_⟩
  obtain ⟨k, hle, hlt, hmod⟩ := Split.exists_mod_eq he
    (Split.start cfg.connection.totalConnections cfg.general.threads w)
  have hshare := Split.le_share hcfg.threads htotal w
  have hend : Split.start cfg.connection.totalConnections cfg.general.threads w +
      Split.share cfg.connection.totalConnections cfg.general.threads w ≤
        cfg.connection.totalConnections := Split.start_add_share_le hcfg.threads hw
  refine mem_slice (k := k) ?_ hle (by omega)
  rw [List.getElem?_map, List.getElem?_range (by omega), Option.map_some, hmod]

/-- With prefill, the assignment has every endpoint whose share is positive. -/
theorem mem_assignment_of_share {e : Nat} (hprefill : cfg.workload.prefill)
    (h : runAssignment cfg sampler = some assignment) (he : e < cfg.target.endpoints.length)
    (hshare : ∀ shares, sampler = some shares →
      shares.length = cfg.target.endpoints.length ∧ 0 < shares.getD e 0) :
    e ∈ assignment := by
  have hle := hcfg.prefill hprefill
  by_cases hround : cfg.connection.endpointAllocation ≠ .keyShare ∨ sampler = none
  · obtain ⟨rfl, -⟩ := connectionEndpoints_roundRobin hround h
    exact List.mem_map.2 ⟨e, List.mem_range.2 (by omega), Nat.mod_eq_of_lt he⟩
  · obtain ⟨hkey, hsome⟩ := not_or.1 hround
    obtain ⟨shares, rfl⟩ := Option.ne_none_iff_exists'.1 hsome
    obtain ⟨hlen, hpos⟩ := hshare shares rfl
    have hassignment : keyShareEndpoints shares cfg.connection.totalConnections =
        some assignment := by
      rwa [runAssignment, not_not.1 hkey] at h
    have hlive : (liveEndpoints shares).length ≤ shares.length := by
      simpa [liveEndpoints] using List.length_filter_le (0 < shares.getD · 0)
        (List.range shares.length)
    exact (keyShareEndpoints_spec hassignment).2 (by omega) e hpos

/-- Every node has a writer. -/
theorem exists_writer (happend : cfg.workload.append.isSome) {e : Nat}
    (he : e < cfg.target.endpoints.length) :
    ∃ w < cfg.general.threads, e ∈ appendWriters cfg w := by
  obtain ⟨append, happend⟩ := Option.isSome_iff_exists.1 happend
  obtain ⟨hle, hping, hdma⟩ := hcfg.append append happend
  have hmax : max cfg.target.endpoints.length 1 = cfg.target.endpoints.length := by omega
  obtain ⟨w, hw, hstart, hend⟩ := Split.exists_slice hcfg.threads (Nat.lt_of_lt_of_le he hle)
  refine ⟨w, hw, ?_⟩
  have hmem : e ∈ (List.range (Split.share append.connections cfg.general.threads w)).map fun i =>
      (Split.start append.connections cfg.general.threads w + i) %
        cfg.target.endpoints.length := by
    refine List.mem_map.2 ⟨e - Split.start append.connections cfg.general.threads w,
      List.mem_range.2 (by omega), ?_⟩
    rw [Nat.add_sub_cancel' hstart, Nat.mod_eq_of_lt he]
  simp only [appendWriters, happend, connectionShare_eq hcfg.threads, hmax]
  cases hprotocol : cfg.target.protocol with
  | ping => exact absurd hprotocol hping
  | dma => exact absurd hprotocol hdma
  | resp | resp3 | memcache | memcacheBinary => exact hmem

end Cover

/-- **The connection split agrees and covers.** The computations of a worker's share agree, its
slices tile the connections and the largest is `connections_per_worker`. In a run that
`Config::validate` and `check_node_counts` accept: every worker of a routed run over several nodes
has a connection to every node; every node whose prefill queue is not empty has a connection, round
robin and by key share; every node has an append writer. -/
theorem connection_split_covers (hashSlot ring : List UInt8 → Nat) (weight : UInt32 → ℚ)
    (hweight : ∀ id, 0 < weight id) :
    (∀ total threads, 1 ≤ threads → SplitAgrees total threads) ∧
    ∀ (fmt : Config.F64Format) (cfg : Config) (dmaFeature : Bool) (nodes : List SocketAddr)
      (slotTable : Option (List UInt16)) (queues : List (List Nat)) (keys : List (List UInt32)),
      cfg.validate fmt dmaFeature = .ok () →
      Runner.checkNodeCounts (Runner.withEndpoints cfg nodes) nodes.length = .ok () →
      1 ≤ nodes.length →
      Partition.buildPrefillQueues hashSlot ring cfg.workload.keyspace.format
        (if cfg.workload.prefill then cfg.workload.keyspace.count else 0)
        cfg.workload.keyspace.length nodes slotTable = some queues →
      Partition.buildEndpointKeys hashSlot ring cfg.workload.keyspace.format
        cfg.workload.keyspace.count cfg.workload.keyspace.length nodes slotTable = some keys →
      Covers (Runner.withEndpoints cfg nodes)
        (endpointSampler weight cfg.workload.keyspace.distribution keys) queues := by
  refine ⟨fun total threads => splitAgrees, fun fmt cfg dmaFeature nodes slotTable queues keys
    haccepted hcounts hnodes hqueues hkeys => ?_⟩
  have hcfg := checked haccepted hcounts hnodes
  refine ⟨connectionEndpoints_isSome _ _ (Nat.pos_iff_ne_zero.1 hnodes), ?_, ?_, ?_, ?_⟩
  · intro assignment h w hw
    refine ⟨_, workerEndpoints_eq hcfg.threads h hw, ?_⟩
    rw [connectionShare_eq hcfg.threads]
    exact length_slice hcfg.threads h hw
  · intro hrouted hn assignment h w hw
    exact routed_slice hcfg hrouted hn h hw
  · intro hprefill assignment h e queue hqueue hne
    have hon : cfg.workload.prefill := hprefill
    rw [if_pos hon] at hqueues
    refine exists_worker hcfg.threads h (mem_assignment_of_share hcfg hprefill h ?_ ?_)
    · have hlen := Buckets.length_distribute hqueues
      obtain ⟨hlt, -⟩ := List.getElem?_eq_some_iff.1 hqueue
      rw [Nat.max_eq_left hnodes] at hlen
      rwa [hlen] at hlt
    · exact fun shares hshares => sampler_share_pos hqueues hkeys hqueue hne hweight hshares
  · intro happend e he
    exact exists_writer hcfg happend he

/-! ## Two nodes -/

/-- Three connections over two workers, by key share. -/
def twoNodesByShare : Config :=
  { Config.minimal with
    general := ⟨2, none, none⟩
    target := { Config.minimal.target with
      endpoints := [.v4 [10, 0, 0, 1] 6379, .v4 [10, 0, 0, 2] 6379] }
    connection := ⟨3, none, 1, .keyShare, none⟩
    workload := { Config.minimal.workload with
      prefill := true
      keyspace := { Config.minimal.workload.keyspace with count := 4, distribution := .zipf } } }

/-- The even ids are one node's, the odd ids the other's. -/
def parityRing (key : List UInt8) : Nat := (key.getLastD 0).toNat % 2

/-- The zipf weights at `theta = 1`. -/
def harmonicWeight (id : UInt32) : ℚ := 1 / (id.toNat + 1)

theorem split_covers_twoNodes :
    twoNodesByShare.validate .exact false = .ok () ∧ ∃ w < 2, ∃ slice,
      workerEndpoints twoNodesByShare (endpointSampler harmonicWeight .zipf [[0, 2], [1, 3]]) w =
        some slice ∧ 1 ∈ slice := by
  have haccepted : twoNodesByShare.validate .exact false = .ok () := by decide
  have hweight : ∀ id, 0 < harmonicWeight id := fun id =>
    div_pos one_pos (Nat.cast_add_one_pos _)
  have hcovers := (connection_split_covers (fun _ => 0) parityRing harmonicWeight hweight).2 .exact
    twoNodesByShare false twoNodesByShare.target.endpoints none [[0, 2], [1, 3]] [[0, 2], [1, 3]]
    haccepted rfl (by decide) (by decide) (by decide)
  obtain ⟨assignment, h⟩ := Option.isSome_iff_exists.1 (hcovers.assigned (by decide))
  exact ⟨haccepted, hcovers.prefill rfl assignment h 1 [1, 3] rfl (by decide)⟩

end Worker
