import Cachecannon.Worker.Address
import Mathlib.Data.Rat.Defs

/-!
# The run configuration (`src/config/mod.rs`)

The fields of `Config` that `validate` and the connection split read. Counts and sizes are natural
numbers, durations are in nanoseconds. `F64` is an `f64` up to the sign of zero: comparisons are
those of IEEE 754, where nothing compares with NaN.
-/

namespace Config

open Worker (SocketAddr)

inductive F64
  | nan
  | negInf
  | finite (q : ℚ)
  | posInf
  deriving Repr, DecidableEq

namespace F64

def isFinite : F64 → Bool
  | .finite _ => true
  | .nan | .negInf | .posInf => false

def le : F64 → F64 → Bool
  | .nan, _ | _, .nan => false
  | .negInf, _ | _, .posInf => true
  | .posInf, _ | _, .negInf => false
  | .finite a, .finite b => a ≤ b

def lt : F64 → F64 → Bool
  | .nan, _ | _, .nan => false
  | .negInf, b => b ≠ .negInf
  | a, .posInf => a ≠ .posInf
  | .posInf, _ | _, .negInf => false
  | .finite a, .finite b => a < b

end F64

inductive Protocol
  | resp
  | resp3
  | memcache
  | memcacheBinary
  | ping
  | dma
  deriving Repr, DecidableEq

inductive EndpointAllocation
  | even
  | keyShare
  deriving Repr, DecidableEq

inductive Routing
  | pinned
  | routed
  deriving Repr, DecidableEq

inductive Distribution
  | uniform
  | zipf
  | recency
  deriving Repr, DecidableEq

inductive KeyFormat
  | hex
  | uuid
  deriving Repr, DecidableEq

inductive RespModule
  | none
  | largeObj
  deriving Repr, DecidableEq

inductive TimestampMode
  | userspace
  | software
  deriving Repr, DecidableEq

structure General where
  threads : Nat
  recvRingSize : Option Nat
  recvBufferSize : Option Nat
  deriving Repr, DecidableEq

structure Target where
  endpoints : List SocketAddr
  protocol : Protocol
  tls : Bool
  tlsCaFile : Option String
  tlsCertFile : Option String
  tlsKeyFile : Option String
  cluster : Bool
  autoDiscovery : Bool
  deriving Repr, DecidableEq

structure Connection where
  connections : Nat
  poolSize : Option Nat
  pipelineDepth : Nat
  endpointAllocation : EndpointAllocation
  batchSize : Option Nat
  deriving Repr, DecidableEq

structure Keyspace where
  length : Nat
  count : Nat
  distribution : Distribution
  zipfTheta : F64
  format : KeyFormat
  hotGenerations : Nat
  hotDecay : F64
  hotFraction : F64
  deriving Repr, DecidableEq

structure Append where
  batch : Nat
  every : Nat
  connections : Nat
  pipelineDepth : Nat
  deriving Repr, DecidableEq

structure KvReplay where
  speedup : F64
  modelConfig : Option String
  kvDtype : Option String
  kvBytesPerToken : Option Nat
  mla : Bool
  tp : Nat
  deriving Repr, DecidableEq

structure SaturationSearch where
  startRate : Nat
  stepMultiplier : F64
  minThroughputRatio : F64
  sloP50 : Option Nat
  sloP99 : Option Nat
  sloP999 : Option Nat
  deriving Repr, DecidableEq

structure Commands where
  get : Nat
  set : Nat
  delete : Nat
  deriving Repr, DecidableEq

/-- `traceReplay` is whether the section is there. -/
structure Workload where
  rateLimit : Option Nat
  prefillRateLimit : Option Nat
  prefill : Bool
  prefillTimeout : Nat
  backfillOnMiss : Bool
  routing : Routing
  readValues : Bool
  keyspace : Keyspace
  commands : Commands
  valuesLength : Nat
  saturationSearch : Option SaturationSearch
  append : Option Append
  kvReplay : Option KvReplay
  traceReplay : Bool
  deriving Repr, DecidableEq

end Config

/-- The configuration of a run. -/
structure Config where
  general : Config.General
  target : Config.Target
  connection : Config.Connection
  workload : Config.Workload
  timestampsMode : Config.TimestampMode
  dmaBufferCapacity : Option Nat
  respModule : Config.RespModule
  deriving Repr, DecidableEq

namespace Config

/-- The legacy `pool_size` when it is set. -/
def Connection.totalConnections (c : Connection) : Nat := c.poolSize.getD c.connections

/-- `Config::effective_batch_size` -/
def effectiveBatchSize (cfg : Config) : Nat :=
  let depth := cfg.connection.pipelineDepth
  let unset := if cfg.workload.routing = .routed then 1 else depth
  min (max (cfg.connection.batchSize.getD unset) 1) (max depth 1)

end Config
