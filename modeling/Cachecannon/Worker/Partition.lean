import Cachecannon.Lib.Buckets
import Cachecannon.Worker.Key
import Cachecannon.Worker.Route
import Cachecannon.Worker.Tokens

/-!
# The partition of the keyspace (`src/worker.rs`, `src/keydist.rs`)

At startup the runner routes every key id twice: into the queues that prefill drains
(`build_prefill_queues`), and into the lists that connections draw keys from
(`build_endpoint_keys`), which hold the ids as `u32`. A connection of one of several endpoints
draws from its endpoint's list, with the uniform distribution or zipf (`EndpointZipf`), or from the
whole keyspace until a key routes to its endpoint (recency).

What the random generator gives a draw is its input; `none` is an index out of bounds.
-/

namespace Worker

section Build

variable (hashSlot ring : List UInt8 → Nat) (format : Config.KeyFormat)

/-- Where a table or ring routes the key of an id. -/
def routeId (slotTable : Option (List UInt16)) (numEndpoints keyLen id : Nat) : Option Nat :=
  routePartition hashSlot ring slotTable numEndpoints (writeKey format keyLen id)

namespace Partition

def buildPrefillQueues (keyCount keyLen : Nat) (endpoints : List SocketAddr)
    (slotTable : Option (List UInt16)) : Option (List (List Nat)) :=
  let n := max endpoints.length 1
  Buckets.distribute (routeId hashSlot ring format slotTable n keyLen) id n (List.range keyCount)

def buildEndpointKeys (keyCount keyLen : Nat) (endpoints : List SocketAddr)
    (slotTable : Option (List UInt16)) : Option (List (List UInt32)) :=
  let n := endpoints.length
  if n ≤ 1 then some []
  else
    Buckets.distribute (routeId hashSlot ring format slotTable n keyLen) UInt32.ofNat n
      (List.range keyCount)

end Partition

end Build

/-! ## Drawing a key -/

/-- `bucket[rng.random_range(0..bucket.len())] as usize`, for an endpoint that owns keys. -/
def uniformKey (endpointKeys : List (List UInt32)) (endpoint draw : Nat) : Option Nat :=
  (endpointKeys[endpoint]?).bind fun bucket =>
    if bucket = [] then none else (bucket[draw % bucket.length]?).map UInt32.toNat

/-- The ids by endpoint, and for each endpoint that owns keys an alias table with as many weights
as it has keys. -/
structure EndpointZipf where
  keys : List (List UInt32)
  tables : List (Option Nat)

def EndpointZipf.new (keys : List (List UInt32)) : EndpointZipf where
  keys := keys
  tables := keys.map fun ids => if ids = [] then none else some ids.length

/-- `EndpointZipf::sample`: the alias table gives an index below its length. -/
def EndpointZipf.sample (z : EndpointZipf) (endpoint draw : Nat) : Option Nat := do
  let weights ← (← z.tables[endpoint]?)
  let ids ← z.keys[endpoint]?
  (ids[draw % weights]?).map UInt32.toNat

section Pick

variable (hashSlot ring : List UInt8 → Nat) (format : Config.KeyFormat) (keyLen : Nat)

/-- The connection loop of an endpoint's connection, drawing from what the runner built. -/
def workloadConfigOf (loop : LoopConfig) (state : TaskSharedState)
    (endpointKeys : List (List UInt32)) (dist : Config.Distribution) (endpoint : Nat) :
    WorkloadConfig where
  toLoopConfig := loop
  numEndpoints := state.endpoints.length
  endpointIdx := endpoint
  keyDist := match dist with
    | .uniform => .uniform ((endpointKeys.getD endpoint []).map UInt32.toNat)
    | .zipf => .byEndpoint
    | .recency => .global

/-- A turn of its fire loop, the worker having the routing state `state`. -/
def workloadTurnOf (state : TaskSharedState) (endpointKeys : List (List UInt32)) (endpoint : Nat)
    (draws : Nat → Nat) (fire : FireResult) : WorkloadTurn where
  draws := draws
  sampled := (EndpointZipf.new endpointKeys).sample endpoint (draws 0)
  -- a slot that the table does not have routes to no endpoint
  route id := (routeKey hashSlot ring state (writeKey format keyLen id)).getD
    state.endpoints.length
  fire := fire

/-- The key that the non-routed fire loop of `drive_resp_workload` picks. -/
def pickedKey (loop : LoopConfig) (state : TaskSharedState) (endpointKeys : List (List UInt32))
    (dist : Config.Distribution) (endpoint : Nat) (draws : Nat → Nat) (fire : FireResult) :
    Option Nat :=
  pickKey (workloadConfigOf loop state endpointKeys dist endpoint)
    (workloadTurnOf hashSlot ring format keyLen state endpointKeys endpoint draws fire)

end Pick

end Worker
