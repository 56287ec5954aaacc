import Cachecannon.Worker.Append
import Cachecannon.Worker.Connections
import Cachecannon.Worker.Tokens

/-!
# Key distributions and the start of a run (`src/keydist.rs`, `src/runner.rs`)

`none` is a panic: a failed assertion or `expect`, a draw from an empty range or a `Vec` capacity.
The `rand_distr` sampler is a parameter.
-/

namespace Keydist

open Config (F64)
open Worker (RecencyDraw tryRandomRange vecFits)

/-- `rand_distr::Zipf` and the casts around it. It takes every size and exponent but those below 1
and 0. `sample` gives a rank for a state of the random generator. -/
structure ZipfDist where
  Inner : Type
  asF64 : Nat → ℚ
  one_le_asF64 : ∀ n, 1 ≤ n → 1 ≤ asF64 n
  new : ℚ → F64 → Option Inner
  new_isSome : ∀ n s, 1 ≤ n → 0 ≤ s → (new n (.finite s)).isSome
  sample : Inner → Nat → F64

/-- `as usize`, which saturates. -/
def toUsize : F64 → Nat
  | .nan | .negInf => 0
  | .finite q => min q.floor.toNat (2 ^ 64 - 1)
  | .posInf => 2 ^ 64 - 1

/-- The head of `recency` is shared, so a draw is given the one it loads. -/
inductive KeyDist (lib : ZipfDist)
  | uniform (n : Nat)
  | zipf (n : Nat) (theta : F64) (inner : lib.Inner)
  | recency (r : Worker.Recency)

variable {lib : ZipfDist}

def Zipfian.new (lib : ZipfDist) (n : Nat) (theta : F64) : Option (KeyDist lib) :=
  if 1 ≤ n then (lib.new (lib.asF64 n) theta).map (.zipf n theta) else none

def Recency.new (batch generations : Nat) (decay hotFraction : F64) : Option Worker.Recency :=
  if 1 ≤ batch ∧ 1 ≤ generations ∧
      (decay.isFinite && F64.lt (.finite 0) decay && decay.le (.finite 1)) ∧
      (hotFraction.isFinite && (F64.le (.finite 0) hotFraction && hotFraction.le (.finite 1))) ∧
      vecFits 8 generations then
    some { batch, generations }
  else none

def KeyDist.fromWorkload (lib : ZipfDist) (w : Config.Workload) : Option (KeyDist lib) :=
  let ks := w.keyspace
  match ks.distribution with
  | .uniform => some (.uniform ks.count)
  | .zipf => Zipfian.new lib ks.count ks.zipfTheta
  | .recency =>
    (w.append.map (·.batch)).bind fun batch =>
      (Recency.new batch ks.hotGenerations ks.hotDecay ks.hotFraction).map .recency

def KeyDist.sample (dist : KeyDist lib) (head : Nat) (draw : RecencyDraw) : Option Nat :=
  match dist with
  | .uniform n => tryRandomRange 0 n draw.offset
  | .zipf n _ inner =>
    let rank := toUsize (lib.sample inner draw.offset)
    some (min (rank - 1) (n - 1))
  | .recency r => r.trySample head draw

def KeyDist.len (dist : KeyDist lib) (head : Nat) : Nat :=
  match dist with
  | .uniform n => n
  | .zipf n _ _ => n
  | .recency _ => head

end Keydist

namespace Runner

theorem effectiveBatchSize_pos (cfg : Config) : 0 < cfg.effectiveBatchSize := by
  simp only [Config.effectiveBatchSize]
  omega

/-- The settings of a connection loop of a run. -/
def loopConfig (cfg : Config) (dispatcher : Bool) : Worker.LoopConfig where
  pipelineDepth := cfg.connection.pipelineDepth
  batchSize := cfg.effectiveBatchSize
  batchSize_pos := effectiveBatchSize_pos cfg
  dispatcher

/-- `prefill_keys_total` -/
def prefillKeysTotal (cfg : Config) : Nat :=
  if cfg.workload.prefill then cfg.workload.keyspace.count else 0

/-- Whether the connection tasks that `spawn_protocol_tasks` spawns take keys from the prefill
queues and confirm them. Those of `ping` mark the prefill done, and take none. -/
def drainsPrefill : Config.Protocol → Bool
  | .ping => false
  | .resp | .resp3 | .memcache | .memcacheBinary | .dma => true

/-- The keys that the tasks of a run can confirm: each key of the queues once. -/
def confirmable (cfg : Config) : Nat :=
  if drainsPrefill cfg.target.protocol then prefillKeysTotal cfg else 0

/-- Whether the runner goes from prefill to warmup. -/
def leavesPrefill (total confirmed : Nat) : Bool := decide (0 < total) && decide (total ≤ confirmed)

end Runner
