import Cachecannon.Config.Model
import Mathlib.Algebra.Order.Ring.Nat
import Mathlib.Algebra.Order.Field.Rat

/-!
# The connections of a run (`src/worker.rs`, `src/keydist.rs`, `src/runner.rs`)

The run's connections are numbered, and each worker takes a contiguous slice of the numbers. The
slice is worked out where a worker is created, where its connections get their endpoints, for the
append writers and for the rate limiters. A connection goes to the endpoint `i % num_endpoints`, or
to the one that `key_share_endpoints` gives it.

Shares are rationals instead of `f64`. `none` is a panic: an index out of bounds, an `expect`, or a
`Vec` that is too large.
-/

namespace Worker

open Config (EndpointAllocation)

/-! ## The slice of a worker -/

/-- `my_connections` of `create_for_worker`. -/
def myConnections (totalConnections numThreads id : Nat) : Nat :=
  let basePerThread := totalConnections / numThreads
  let remainder := totalConnections % numThreads
  if id < remainder then basePerThread + 1 else basePerThread

/-- `my_start` of `my_connection_endpoints`. -/
def myStart (totalConnections numThreads workerId : Nat) : Nat :=
  let basePerThread := totalConnections / numThreads
  let remainder := totalConnections % numThreads
  if workerId < remainder then workerId * (basePerThread + 1)
  else remainder * (basePerThread + 1) + (workerId - remainder) * basePerThread

/-- The share of a worker, and the index of its first connection. -/
def connectionShare (total numThreads workerId : Nat) : Nat × Nat :=
  let numThreads := max numThreads 1
  let base := total / numThreads
  let rem := total % numThreads
  let mine := if workerId < rem then base + 1 else base
  let start :=
    if workerId < rem then workerId * (base + 1)
    else rem * (base + 1) + (workerId - rem) * base
  (mine, start)

/-! ## The endpoint of a connection -/

/-- A `Vec` holds at most `isize::MAX` bytes. -/
def vecFits (size len : Nat) : Bool := size * len ≤ 2 ^ 63 - 1

/-- `Iterator::max_by`, which returns the last of several. -/
def maxBy {α : Type} (key : α → ℚ) : List α → Option α
  | [] => none
  | x :: xs => some (xs.foldl (fun best y => if key y < key best then best else y) x)

/-- `Iterator::min_by`, which returns the first of several. -/
def minBy {α : Type} (key : α → ℚ) : List α → Option α
  | [] => none
  | x :: xs => some (xs.foldl (fun best y => if key y < key best then y else best) x)

/-- `target[e] - count[e]` -/
def gap (target : List ℚ) (count : List Nat) (e : Nat) : ℚ := target.getD e 0 - count.getD e 0

/-- The loop `while sum < total`, which runs `total - sum` times. -/
def raiseCounts (target : List ℚ) (live : List Nat) : Nat → List Nat → Option (List Nat)
  | 0, count => some count
  | left + 1, count => do
    let e ← maxBy (gap target count) live
    raiseCounts target live left (count.modify e (· + 1))

/-- The loop `while sum > total`, which runs `sum - total` times. -/
def lowerCounts (target : List ℚ) : Nat → List Nat → Option (List Nat)
  | 0, count => some count
  | left + 1, count => do
    let e ← minBy (gap target count) ((List.range count.length).filter (1 < count.getD · 0))
    lowerCounts target left (count.modify e (· - 1))

/-- The `k`-th of the `c` connections of endpoint `e` is placed at `(k + 0.5) / c`. -/
def slots (count : List Nat) : List (ℚ × Nat) :=
  count.zipIdx.flatMap fun p =>
    (List.range p.1).map fun k : Nat => ((k + 1 / 2 : ℚ) / (p.1 : ℚ), p.2)

def slotLe (a b : ℚ × Nat) : Bool := a.1 < b.1 || a.1 = b.1 && a.2 ≤ b.2

/-- Endpoints that own keys. -/
def liveEndpoints (shares : List ℚ) : List Nat :=
  (List.range shares.length).filter (0 < shares.getD · 0)

/-- The counts before they are adjusted to sum to `total`. -/
def floorCounts (shares : List ℚ) (total : Nat) : List Nat :=
  shares.map fun share => if 0 < share then max (share * (total : ℚ)).floor.toNat 1 else 0

def keyShareEndpoints (shares : List ℚ) (total : Nat) : Option (List Nat) :=
  let live := liveEndpoints shares
  if live.isEmpty || total < live.length then
    -- not empty
    let pool := if live.isEmpty then List.range (max shares.length 1) else live
    if vecFits 8 total then some ((List.range total).map fun i => pool.getD (i % pool.length) 0)
    else none
  else do
    let target := shares.map (· * (total : ℚ))
    let count := floorCounts shares total
    let sum := count.sum
    let count ← raiseCounts target live (total - sum) count
    -- after the first loop the sum is the larger of `sum` and `total`
    let count ← lowerCounts target (sum - total) count
    if vecFits 16 total then some (((slots count).mergeSort slotLe).map (·.2)) else none

/-- `sampler` has the shares of the per-endpoint zipf sampler. -/
def connectionEndpoints (allocation : EndpointAllocation) (sampler : Option (List ℚ))
    (total numEndpoints : Nat) : Option (List Nat) :=
  match allocation, sampler with
  | .keyShare, some shares => keyShareEndpoints shares total
  | _, _ =>
    if vecFits 8 total && (numEndpoints ≠ 0 || total = 0) then
      some ((List.range total).map (· % numEndpoints))
    else none

/-- The index of a worker's first connection, and the endpoint each of its connections serves. -/
def myConnectionEndpoints (cfg : Config) (sampler : Option (List ℚ))
    (myConnections workerId : Nat) : Option (Nat × List Nat) := do
  let totalConnections := cfg.connection.totalConnections
  let start := myStart totalConnections cfg.general.threads workerId
  let assignment ← connectionEndpoints cfg.connection.endpointAllocation sampler totalConnections
    cfg.target.endpoints.length
  if start + myConnections ≤ assignment.length then
    some (start, (assignment.drop start).take myConnections)
  else none

/-- The endpoints of a worker's connections: `my_connection_endpoints` at the share that
`create_for_worker` gave the worker. -/
def workerEndpoints (cfg : Config) (sampler : Option (List ℚ)) (workerId : Nat) :
    Option (List Nat) :=
  let mine := myConnections cfg.connection.totalConnections cfg.general.threads workerId
  (myConnectionEndpoints cfg sampler mine workerId).map (·.2)

/-- The shares of `EndpointZipf::new`; `weight id` is `(id + 1) ^ -theta`. -/
def endpointShares (weight : UInt32 → ℚ) (keys : List (List UInt32)) : List ℚ :=
  let shares := keys.map fun ids => (ids.map weight).sum
  let total := shares.sum
  shares.map (· / total)

/-- `KeyDist::with_endpoint_keys` and `endpoint_sampler`: a zipf distribution over several endpoints
has a per-endpoint sampler. -/
def endpointSampler (weight : UInt32 → ℚ) (dist : Config.Distribution)
    (endpointKeys : List (List UInt32)) : Option (List ℚ) :=
  if dist = .zipf ∧ 1 < endpointKeys.length then some (endpointShares weight endpointKeys)
  else none

/-- `spawn_append_tasks`: the endpoint of each append writer of a worker. -/
def appendWriters (cfg : Config) (workerId : Nat) : List Nat :=
  match cfg.workload.append with
  | none => []
  | some append =>
    let numEndpoints := max cfg.target.endpoints.length 1
    let (mine, start) := connectionShare append.connections cfg.general.threads workerId
    match cfg.target.protocol with
    | .resp | .resp3 | .memcache | .memcacheBinary =>
      (List.range mine).map fun i => (start + i) % numEndpoints
    -- refused by `Config::validate`
    | .ping | .dma => []

end Worker

/-! ## The runner -/

namespace Runner

/-- Connections of the busiest worker: `total_connections.div_ceil(num_threads.max(1))`. -/
def connectionsPerWorker (totalConnections numThreads : Nat) : Nat :=
  let numThreads := max numThreads 1
  if 0 < totalConnections % numThreads then totalConnections / numThreads + 1
  else totalConnections / numThreads

/-- `conns`, by which `WorkerLimiters::new` weighs the workers. -/
def limiterWeights (totalConnections numThreads : Nat) : List Nat :=
  (List.range numThreads).map fun id => (Worker.connectionShare totalConnections numThreads id).1

def saturatingMul (a b : Nat) : Nat := min (a * b) (2 ^ 64 - 1)

def checkNodeCounts (cfg : Config) (numEndpoints : Nat) : Except String Unit :=
  let totalConnections := cfg.connection.totalConnections
  let threads := cfg.general.threads
  if cfg.workload.prefill ∧ 1 < numEndpoints ∧ totalConnections < numEndpoints then
    .error ("cluster prefill needs at least one connection per node, but --connections=" ++
      toString totalConnections ++ " < " ++ toString numEndpoints ++
      " cluster nodes. Increase --connections to >= " ++ toString numEndpoints ++
      " (ideally >= threads x nodes for an even spread).")
  else if cfg.workload.routing = .routed ∧ 1 < numEndpoints ∧
      totalConnections < saturatingMul threads numEndpoints then
    .error ("routing = \"routed\" needs connections (" ++ toString totalConnections ++
      ") >= threads (" ++ toString threads ++ ") x nodes (" ++ toString numEndpoints ++ ") = " ++
      toString (saturatingMul threads numEndpoints) ++
      ", so every worker has a connection to every node")
  else if cfg.workload.append.any (fun append =>
      1 < numEndpoints && append.connections < numEndpoints) then
    .error ("append.connections (" ++
      toString ((cfg.workload.append.map (·.connections)).getD 0) ++
      ") must be >= the number of nodes (" ++ toString numEndpoints ++
      ") so every node's append queue has a writer draining it")
  else .ok ()

/-- The configuration once discovery has found the nodes (`resolve_endpoints`). -/
def withEndpoints (cfg : Config) (nodes : List Worker.SocketAddr) : Config :=
  { cfg with target := { cfg.target with endpoints := nodes } }

end Runner
