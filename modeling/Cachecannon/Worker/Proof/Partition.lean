import Cachecannon.Worker.Partition
import Cachecannon.Worker.Prefill
import Cachecannon.Worker.Proof.Redirect

/-!
# The two partitions of the keyspace

Both partitions have an endpoint's ids in increasing order (`buildPrefillQueues_eq`,
`buildEndpointKeys_eq`), but the lists drawn from hold them as `u32`: the two agree exactly when
every id fits (`partition_agrees_iff`).

The lists are built once, from the slot table found at startup, and are not rebuilt when a `MOVED`
moves a slot. `picked_key_routes` says which table a picked key follows: the one at startup for
uniform and zipf, the worker's current one for recency.
-/

namespace Worker

/-! ## The partitions -/

section Partition

variable {hashSlot ring : List UInt8 → Nat} {format : Config.KeyFormat} {keyLen : Nat}
  {endpoints : List SocketAddr} {slotTable : Option (List UInt16)}

/-- The ids of `0..keyCount` that route to an endpoint. -/
def ownedIds (route : Nat → Option Nat) (keyCount endpoint : Nat) : List Nat :=
  (List.range keyCount).filter fun id => route id = some endpoint

/-- A slot table found at startup, or a ring, routes every key to an endpoint. -/
theorem routePartition_some (hhash : ∀ key, hashSlot key < slotCount)
    (hring : ∀ key, ring key < endpoints.length)
    (htable : ∀ table, slotTable = some table → Routable endpoints table)
    (hn : 2 ≤ endpoints.length) (key : List UInt8) :
    ∃ ep < endpoints.length,
      routePartition hashSlot ring slotTable endpoints.length key = some ep := by
  cases hslot : slotTable with
  | some table =>
    subst hslot
    exact routeKey_routable (s := ⟨endpoints, some table⟩) hhash rfl (htable table rfl) key
  | none =>
    refine ⟨ring key, hring key, ?_⟩
    simp only [routePartition]
    rw [if_neg (by omega)]

section Build

variable (hroute : ∀ id, ∃ ep < endpoints.length,
  routeId hashSlot ring format slotTable endpoints.length keyLen id = some ep)

include hroute

/-- What distributing the ids leaves. -/
theorem distribute_ids {α : Type} (f : Nat → α) (keyCount : Nat) :
    Buckets.distribute (routeId hashSlot ring format slotTable endpoints.length keyLen) f
        endpoints.length (List.range keyCount) =
      some ((List.range endpoints.length).map fun e => (ownedIds
        (routeId hashSlot ring format slotTable endpoints.length keyLen) keyCount e).map f) := by
  choose r hlt hr using hroute
  rw [Buckets.distribute_eq f fun id => ⟨hr id, hlt id⟩]
  simp only [ownedIds, hr, Option.some.injEq]

theorem buildEndpointKeys_eq (hn : 2 ≤ endpoints.length) (keyCount : Nat) :
    Partition.buildEndpointKeys hashSlot ring format keyCount keyLen endpoints slotTable =
      some ((List.range endpoints.length).map fun e => (ownedIds
        (routeId hashSlot ring format slotTable endpoints.length keyLen) keyCount e).map
          UInt32.ofNat) := by
  simp only [Partition.buildEndpointKeys]
  rw [if_neg (by omega), distribute_ids hroute]

theorem buildPrefillQueues_eq (hn : 2 ≤ endpoints.length) (keyCount : Nat) :
    Partition.buildPrefillQueues hashSlot ring format keyCount keyLen endpoints slotTable =
      some ((List.range endpoints.length).map fun e => ownedIds
        (routeId hashSlot ring format slotTable endpoints.length keyLen) keyCount e) := by
  have hmax : max endpoints.length 1 = endpoints.length := by omega
  simp only [Partition.buildPrefillQueues, hmax]
  rw [distribute_ids hroute]
  simp

end Build

/-- The faithful queues are those that `Worker.Prefill` starts from. -/
theorem ownedIds_eq_prefill (r : Nat → Nat) (keyCount e : Nat) :
    ownedIds (fun id => some (r id)) keyCount e = Worker.buildPrefillQueues r keyCount e := by
  have hfold : ∀ (ids : List Nat) (queues : Nat → List Nat),
      ids.foldl (fun queues id =>
        Function.update queues (r id) (queues (r id) ++ [id])) queues e =
          queues e ++ ids.filter fun id => r id = e := by
    intro ids
    induction ids with
    | nil => simp
    | cons id ids ih =>
      intro queues
      rw [List.foldl_cons, ih, List.filter_cons]
      by_cases he : r id = e
      · simp [he]
      · simp [he, Ne.symm he]
  simpa [ownedIds, Worker.buildPrefillQueues] using (hfold (List.range keyCount) fun _ => []).symm

/-! ## Draws -/

theorem uniformKey_iff (keys : List (List UInt32)) (e k : Nat) :
    (∃ draw, uniformKey keys e draw = some k) ↔ k ∈ (keys.getD e []).map UInt32.toNat := by
  unfold uniformKey
  cases hbucket : keys[e]? with
  | none => simp [List.getD_eq_getElem?_getD, hbucket]
  | some bucket =>
    simp only [Option.bind_some, List.getD_eq_getElem?_getD, hbucket, Option.getD_some]
    constructor
    · rintro ⟨draw, hdraw⟩
      split at hdraw
      · cases hdraw
      · obtain ⟨id, hid, rfl⟩ := Option.map_eq_some_iff.1 hdraw
        exact List.mem_map_of_mem (List.mem_of_getElem? hid)
    · intro hk
      obtain ⟨id, hid, rfl⟩ := List.mem_map.1 hk
      obtain ⟨i, hi, hget⟩ := List.mem_iff_getElem.1 hid
      refine ⟨i, ?_⟩
      rw [if_neg (List.ne_nil_of_mem hid), Nat.mod_eq_of_lt hi, List.getElem?_eq_getElem hi, hget]
      rfl

/-- A sampler of an endpoint's keys and a uniform draw index the same list. -/
theorem sample_eq_uniformKey (keys : List (List UInt32)) (e draw : Nat) :
    (EndpointZipf.new keys).sample e draw = uniformKey keys e draw := by
  simp only [EndpointZipf.sample, EndpointZipf.new, List.getElem?_map, uniformKey]
  cases keys[e]? with
  | none => rfl
  | some bucket =>
    by_cases hempty : bucket = []
    · simp [hempty]
    · simp [hempty]

theorem map_toNat_ofNat {ids : List Nat} (h : ∀ id ∈ ids, id < 2 ^ 32) :
    (ids.map UInt32.ofNat).map UInt32.toNat = ids := by
  rw [List.map_map]
  refine (List.map_congr_left fun id hid => ?_).trans (List.map_id ids)
  simp only [Function.comp_apply, UInt32.toNat_ofNat', id_eq]
  exact Nat.mod_eq_of_lt (h id hid)

theorem ownedIds_lt {route : Nat → Option Nat} {keyCount e id : Nat}
    (h : id ∈ ownedIds route keyCount e) : id < keyCount ∧ route id = some e := by
  obtain ⟨hrange, hroute⟩ := List.mem_filter.1 h
  exact ⟨List.mem_range.1 hrange, of_decide_eq_true hroute⟩

theorem getD_map_range {α : Type} {n e : Nat} (he : e < n) (f : Nat → List α) :
    ((List.range n).map f).getD e [] = f e := by
  simp [List.getD_eq_getElem?_getD, he]

variable (hashSlot ring format keyLen endpoints slotTable) in
/-- Each id of `0..keyCount` is in the list and in the queue of the endpoint its key routes to, and
in no other, in increasing order; and what a draw for an endpoint can return is what is prefilled
there. -/
def PartitionsAgree (keyCount : Nat) : Prop :=
  ∃ keys queues,
    Partition.buildEndpointKeys hashSlot ring format keyCount keyLen endpoints slotTable =
        some keys ∧
      Partition.buildPrefillQueues hashSlot ring format keyCount keyLen endpoints slotTable =
        some queues ∧
      keys.length = endpoints.length ∧ queues.length = endpoints.length ∧
      ∀ e < endpoints.length,
        (keys.getD e []).map UInt32.toNat = ownedIds
          (routeId hashSlot ring format slotTable endpoints.length keyLen) keyCount e ∧
        queues.getD e [] = ownedIds
          (routeId hashSlot ring format slotTable endpoints.length keyLen) keyCount e ∧
        (∀ k, (∃ draw, uniformKey keys e draw = some k) ↔ k ∈ queues.getD e []) ∧
        (∀ k, (∃ draw, (EndpointZipf.new keys).sample e draw = some k) ↔ k ∈ queues.getD e [])

/-- The id `2 ^ 32` would be in a list of `u32`s. -/
theorem PartitionsAgree.keyCount_le {keyCount : Nat}
    (hroute : ∀ id, ∃ ep < endpoints.length,
      routeId hashSlot ring format slotTable endpoints.length keyLen id = some ep)
    (h : PartitionsAgree hashSlot ring format keyLen endpoints slotTable keyCount) :
    keyCount ≤ 2 ^ 32 := by
  obtain ⟨keys, queues, -, -, -, -, hall⟩ := h
  by_contra hcount
  obtain ⟨e, he, hid⟩ := hroute (2 ^ 32)
  obtain ⟨hbucket, -⟩ := hall e he
  have hmem : 2 ^ 32 ∈ (keys.getD e []).map UInt32.toNat := by
    rw [hbucket]
    exact List.mem_filter.2 ⟨List.mem_range.2 (by omega), decide_eq_true hid⟩
  obtain ⟨x, -, hx⟩ := List.mem_map.1 hmem
  exact absurd x.toNat_lt (by rw [hx]; decide)

/-- **The two partitions agree** exactly when every id fits in a `u32`. Prefill starts from the
queues of the second one, whatever the number of ids. -/
theorem partition_agrees_iff (hhash : ∀ key, hashSlot key < slotCount)
    (hring : ∀ key, ring key < endpoints.length)
    (htable : ∀ table, slotTable = some table → Routable endpoints table)
    (hn : 2 ≤ endpoints.length) (format : Config.KeyFormat) (keyLen keyCount : Nat) :
    (PartitionsAgree hashSlot ring format keyLen endpoints slotTable keyCount ↔
      keyCount ≤ 2 ^ 32) ∧
    ∃ queues route, Partition.buildPrefillQueues hashSlot ring format keyCount keyLen endpoints
        slotTable = some queues ∧
      (∀ id, routeId hashSlot ring format slotTable endpoints.length keyLen id = some (route id)) ∧
      ∀ e < endpoints.length, queues.getD e [] = Worker.buildPrefillQueues route keyCount e := by
  have hroute : ∀ id, ∃ ep < endpoints.length,
      routeId hashSlot ring format slotTable endpoints.length keyLen id = some ep :=
    fun id => routePartition_some hhash hring htable hn (writeKey format keyLen id)
  refine ⟨⟨PartitionsAgree.keyCount_le hroute, fun hcount => ?_⟩, ?_⟩
  · rw [PartitionsAgree, buildEndpointKeys_eq hroute hn, buildPrefillQueues_eq hroute hn]
    refine ⟨_, _, rfl, rfl, by simp, by simp, fun e he => ?_⟩
    have hids : ((ownedIds (routeId hashSlot ring format slotTable endpoints.length keyLen)
        keyCount e).map UInt32.ofNat).map UInt32.toNat = ownedIds
          (routeId hashSlot ring format slotTable endpoints.length keyLen) keyCount e :=
      map_toNat_ofNat fun id hid => by
        have := (ownedIds_lt hid).1
        omega
    simp only [sample_eq_uniformKey, uniformKey_iff, getD_map_range he, hids]
    exact ⟨trivial, trivial, fun _ => trivial, fun _ => trivial⟩
  · choose route hlt hroutes using hroute
    have hall : routeId hashSlot ring format slotTable endpoints.length keyLen =
        fun id => some (route id) := funext hroutes
    refine ⟨_, route, buildPrefillQueues_eq (fun id => ⟨route id, hlt id, hroutes id⟩) hn keyCount,
      hroutes, fun e he => ?_⟩
    rw [getD_map_range he, hall, ownedIds_eq_prefill]

end Partition

/-! ## Following the topology -/

section Follow

variable {hashSlot ring : List UInt8 → Nat} {format : Config.KeyFormat} {keyLen keyCount : Nat}
  {s₀ s : TaskSharedState} {keys : List (List UInt32)}

theorem checkRespRedirectParsed_endpoints {redirect : Redirect} {s s' : TaskSharedState}
    (h : checkRespRedirectParsed redirect s = some s') : s'.endpoints = s.endpoints := by
  unfold checkRespRedirectParsed at h
  split at h
  · cases h
    rfl
  · split at h
    · split at h
      · obtain ⟨table, -, rfl⟩ := Option.map_eq_some_iff.1 h
        rfl
      · cases h
        rfl
    · cases h
      rfl

theorem handleErrors_endpoints {msgs : List (List Char)}
    (h : handleErrors s₀ msgs = some s) : s.endpoints = s₀.endpoints := by
  refine Exec.run_inv (I := fun t => t.endpoints = s₀.endpoints) ?_ rfl h
  intro t msg t' ht hstep
  unfold handleError at hstep
  split at hstep
  · exact (checkRespRedirectParsed_endpoints hstep).trans ht
  · cases hstep
    exact ht

/-- A key drawn until one routes to the endpoint does. -/
theorem drawRouted_routes {route : Nat → Nat} {endpoint k : Nat} :
    ∀ (attempts : Nat) (draws : Nat → Nat), drawRouted route endpoint draws attempts = some k →
      route k = endpoint := by
  intro attempts
  induction attempts with
  | zero =>
    intro draws h
    cases h
  | succ attempts ih =>
    intro draws h
    simp only [drawRouted] at h
    split at h
    · rename_i hroute
      cases h
      exact hroute
    · exact ih _ h

theorem pickedKey_stationary (loop : LoopConfig) (hn : 2 ≤ s.endpoints.length)
    {dist : Config.Distribution} (hdist : dist ≠ .recency) (endpoint : Nat) (draws : Nat → Nat)
    (fire : FireResult) :
    pickedKey hashSlot ring format keyLen loop s keys dist endpoint draws fire =
      uniformKey keys endpoint (draws 0) := by
  have hmulti : ¬ (workloadConfigOf loop s keys dist endpoint).numEndpoints ≤ 1 := by
    simp only [workloadConfigOf]
    omega
  rw [pickedKey, pickKey, if_neg hmulti]
  cases dist with
  | recency => exact absurd rfl hdist
  | zipf => exact sample_eq_uniformKey keys endpoint (draws 0)
  | uniform =>
    simp only [workloadConfigOf, workloadTurnOf, uniformKey, List.getD_eq_getElem?_getD]
    cases keys[endpoint]? with
    | none => simp
    | some bucket =>
      by_cases hempty : bucket = []
      · simp [hempty]
      · simp [hempty]

theorem pickedKey_recency (loop : LoopConfig) (hn : 2 ≤ s.endpoints.length) {endpoint k : Nat}
    (hlt : endpoint < s.endpoints.length) {draws : Nat → Nat} {fire : FireResult}
    (h : pickedKey hashSlot ring format keyLen loop s keys .recency endpoint draws fire = some k) :
    routeKey hashSlot ring s (writeKey format keyLen k) = some endpoint := by
  have hmulti : ¬ (workloadConfigOf loop s keys .recency endpoint).numEndpoints ≤ 1 := by
    simp only [workloadConfigOf]
    omega
  rw [pickedKey, pickKey, if_neg hmulti] at h
  simp only [workloadConfigOf, workloadTurnOf] at h
  have hroute := drawRouted_routes _ _ h
  cases hkey : routeKey hashSlot ring s (writeKey format keyLen k) with
  | some ep =>
    simp only [hkey, Option.getD_some] at hroute
    rw [hroute]
  | none =>
    simp only [hkey, Option.getD_none] at hroute
    omega

/-- **Which table a picked key follows.** The lists were built from the table `s₀` had at startup,
and redirects led to `s`. A key that uniform or zipf picks for an endpoint is a key of the keyspace
that routes there at startup; one that recency picks routes there now. So uniform and zipf pick
only keys that route to their endpoint now exactly when no key of the keyspace routes elsewhere
than at startup. -/
theorem picked_key_routes (hhash : ∀ key, hashSlot key < slotCount)
    (hring : ∀ key, ring key < s₀.endpoints.length)
    (htable : ∀ table, s₀.slotTable = some table → Routable s₀.endpoints table)
    (hn : 2 ≤ s₀.endpoints.length) (hcount : keyCount ≤ 2 ^ 32)
    (hkeys : Partition.buildEndpointKeys hashSlot ring format keyCount keyLen s₀.endpoints
      s₀.slotTable = some keys) {msgs : List (List Char)} (hrun : handleErrors s₀ msgs = some s)
    (loop : LoopConfig) :
    (∀ dist, ∀ endpoint < s₀.endpoints.length, ∀ draws fire k,
      pickedKey hashSlot ring format keyLen loop s keys dist endpoint draws fire = some k →
        (dist = .recency → routeKey hashSlot ring s (writeKey format keyLen k) = some endpoint) ∧
        (dist ≠ .recency → k < keyCount ∧
          routeKey hashSlot ring s₀ (writeKey format keyLen k) = some endpoint)) ∧
      ∀ dist, dist ≠ .recency →
        ((∀ endpoint < s₀.endpoints.length, ∀ draws fire k,
          pickedKey hashSlot ring format keyLen loop s keys dist endpoint draws fire = some k →
            routeKey hashSlot ring s (writeKey format keyLen k) = some endpoint) ↔
          ∀ id < keyCount, routeKey hashSlot ring s (writeKey format keyLen id) =
            routeKey hashSlot ring s₀ (writeKey format keyLen id)) := by
  have hends := handleErrors_endpoints hrun
  have hns : 2 ≤ s.endpoints.length := hends ▸ hn
  have hroute : ∀ id, ∃ ep < s₀.endpoints.length,
      routeId hashSlot ring format s₀.slotTable s₀.endpoints.length keyLen id = some ep :=
    fun id => routePartition_some hhash hring htable hn (writeKey format keyLen id)
  -- what a list holds is what routes to its endpoint at startup
  have howned : ∀ e < s₀.endpoints.length, (keys.getD e []).map UInt32.toNat = ownedIds
      (routeId hashSlot ring format s₀.slotTable s₀.endpoints.length keyLen) keyCount e := by
    intro e he
    rw [buildEndpointKeys_eq hroute hn] at hkeys
    cases hkeys
    rw [getD_map_range he]
    exact map_toNat_ofNat fun id hid => by
      have := (ownedIds_lt hid).1
      omega
  have hpick : ∀ dist, dist ≠ .recency → ∀ endpoint < s₀.endpoints.length, ∀ draws fire k,
      pickedKey hashSlot ring format keyLen loop s keys dist endpoint draws fire = some k →
        k < keyCount ∧ routeKey hashSlot ring s₀ (writeKey format keyLen k) = some endpoint := by
    intro dist hdist endpoint hlt draws fire k hk
    rw [pickedKey_stationary loop hns hdist] at hk
    have hmem := (uniformKey_iff keys endpoint k).1 ⟨draws 0, hk⟩
    rw [howned endpoint hlt] at hmem
    exact ownedIds_lt hmem
  refine ⟨fun dist endpoint hlt draws fire k hk => ⟨?_, fun hdist => ?_⟩, fun dist hdist => ?_⟩
  · rintro rfl
    exact pickedKey_recency loop hns (hends ▸ hlt) hk
  · exact hpick dist hdist endpoint hlt draws fire k hk
  · constructor
    · intro hall id hid
      obtain ⟨e, he, hstart⟩ := hroute id
      have hmem : id ∈ (keys.getD e []).map UInt32.toNat := by
        rw [howned e he]
        exact List.mem_filter.2 ⟨List.mem_range.2 hid, decide_eq_true hstart⟩
      obtain ⟨draw, hdraw⟩ := (uniformKey_iff keys e id).2 hmem
      have hnow := hall e he (fun _ => draw) .sent id (by
        rw [pickedKey_stationary loop hns hdist]
        exact hdraw)
      exact hnow.trans hstart.symm
    · intro hsame endpoint hlt draws fire k hk
      obtain ⟨hkc, hstart⟩ := hpick dist hdist endpoint hlt draws fire k hk
      exact (hsame k hkc).trans hstart

end Follow

/-! ## A cluster of two nodes -/

def twoNodes : TaskSharedState where
  endpoints := [.v4 [127, 0, 0, 1] 7000, .v4 [127, 0, 0, 1] 7001]
  slotTable := some (List.replicate slotCount 0)

theorem twoNodes_routable :
    ∀ table, twoNodes.slotTable = some table → Routable twoNodes.endpoints table := by
  rintro table ⟨⟩
  refine ⟨List.length_replicate, fun e he => ?_⟩
  rw [List.eq_of_mem_replicate he]
  decide

/-- The key of the id 0 in four bytes is `0000`. -/
theorem clusterHashSlot_zero : clusterHashSlot (writeKey .hex 4 0) = 6794 := by decide +kernel

theorem twoNodes_routes (format : Config.KeyFormat) (keyLen id : Nat) :
    routeId clusterHashSlot (fun _ => 0) format twoNodes.slotTable twoNodes.endpoints.length keyLen
      id = some 0 := by
  simp [routeId, routePartition, twoNodes, clusterHashSlot_lt]

theorem partition_agrees_twoNodes :
    PartitionsAgree clusterHashSlot (fun _ => 0) .hex 4 twoNodes.endpoints twoNodes.slotTable
      1000 :=
  (partition_agrees_iff clusterHashSlot_lt (fun _ => show 0 < 2 by decide) twoNodes_routable
    (by decide) .hex 4 1000).1.2 (by decide)

/-- One id more than a `u32` has. -/
theorem partition_disagrees_twoNodes :
    ¬ PartitionsAgree clusterHashSlot (fun _ => 0) .hex 16 twoNodes.endpoints twoNodes.slotTable
      (2 ^ 32 + 1) := by
  intro h
  have hle := h.keyCount_le fun id => ⟨0, by decide, twoNodes_routes .hex 16 id⟩
  exact absurd hle (by decide)

/-- The slot of the key `0000` moves to the second node. -/
def movedZero : List Char := "MOVED 6794 127.0.0.1:7001".toList

def twoNodesMoved : TaskSharedState :=
  { twoNodes with slotTable := some ((List.replicate slotCount 0).set 6794 (UInt16.ofNat 1)) }

theorem handleErrors_movedZero : handleErrors twoNodes [movedZero] = some twoNodesMoved := by
  have hmoved : parseRespRedirect movedZero =
      some ⟨.moved, 6794, "127.0.0.1:7001".toList⟩ := by decide +kernel
  have haddr : parseSocketAddr "127.0.0.1:7001".toList = some (.v4 [127, 0, 0, 1] 7001) := by
    decide +kernel
  have hfind : twoNodes.endpoints.findIdx? (· = .v4 [127, 0, 0, 1] 7001) = some 1 := by decide
  have hslot : 6794 < (List.replicate slotCount (0 : UInt16)).length := by
    rw [List.length_replicate]
    decide
  have hstep : handleError twoNodes movedZero = some twoNodesMoved := by
    rw [handleError_moved hmoved rfl haddr rfl hfind]
    exact congrArg (Option.map _) (if_pos hslot)
  rw [handleErrors, Exec.run_cons, hstep]
  rfl

theorem moved_route : routeKey clusterHashSlot (fun _ => 0) twoNodesMoved (writeKey .hex 4 0) =
    some 1 := by
  have hlt : 6794 < (List.replicate slotCount (0 : UInt16)).length := by
    rw [List.length_replicate]
    decide
  simp only [routeKey, routePartition, twoNodesMoved, clusterHashSlot_zero]
  rw [List.getElem?_set_self hlt]
  rfl

def oneDeep : LoopConfig := ⟨1, 1, Nat.one_pos, false⟩

/-- A keyspace of one key, after the redirect: uniform still picks the key for the first node. -/
theorem picked_key_moved : ∃ keys,
    Partition.buildEndpointKeys clusterHashSlot (fun _ => 0) .hex 1 4 twoNodes.endpoints
        twoNodes.slotTable = some keys ∧
      handleErrors twoNodes [movedZero] = some twoNodesMoved ∧
      pickedKey clusterHashSlot (fun _ => 0) .hex 4 oneDeep twoNodesMoved keys .uniform 0
        (fun _ => 0) .sent = some 0 ∧
      routeKey clusterHashSlot (fun _ => 0) twoNodesMoved (writeKey .hex 4 0) = some 1 := by
  have hkeys := buildEndpointKeys_eq
    (fun id => ⟨0, show 0 < twoNodes.endpoints.length by decide, twoNodes_routes .hex 4 id⟩)
    (by decide) 1
  refine ⟨_, hkeys, handleErrors_movedZero, ?_, moved_route⟩
  rw [pickedKey_stationary oneDeep (by decide) (by decide)]
  simp only [ownedIds, twoNodes_routes]
  rfl

/-- Zipf then picks for the first node what routed there at startup. -/
theorem picked_key_twoNodes : ∃ keys,
    Partition.buildEndpointKeys clusterHashSlot (fun _ => 0) .hex 1 4 twoNodes.endpoints
        twoNodes.slotTable = some keys ∧
      ∀ draws fire k, pickedKey clusterHashSlot (fun _ => 0) .hex 4 oneDeep twoNodesMoved keys
        .zipf 0 draws fire = some k →
          k < 1 ∧ routeKey clusterHashSlot (fun _ => 0) twoNodes (writeKey .hex 4 k) = some 0 := by
  have hkeys := buildEndpointKeys_eq
    (fun id => ⟨0, show 0 < twoNodes.endpoints.length by decide, twoNodes_routes .hex 4 id⟩)
    (by decide) 1
  refine ⟨_, hkeys, fun draws fire k hk => ?_⟩
  exact ((picked_key_routes clusterHashSlot_lt (fun _ => show 0 < 2 by decide) twoNodes_routable
    (by decide) (by decide) hkeys handleErrors_movedZero oneDeep).1 .zipf 0 (by decide) draws fire k
    hk).2 (by decide)

end Worker
