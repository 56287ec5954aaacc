import Cachecannon.Lib.Exec
import Mathlib.Algebra.Order.Ring.Nat
import Mathlib.Data.Fintype.Basic
import Mathlib.Logic.Function.Basic

/-!
# Sharded counters (`src/sharded_counter.rs`, `CounterGroup`, `Counter`)

A thread adds to its own shard (`fetch_add`) and `value` loads the shards one after the other, with
other threads' adds in between: a `MetricStep` is one access of one atomic. Threads that share a
shard are one here, as a `fetch_add` is one step.
-/

namespace Metrics

def slots : Nat := 16

def numShards : Nat := 256

instance : NeZero slots := ⟨by decide⟩

instance : NeZero numShards := ⟨by decide⟩

/-- `AtomicU64::fetch_add` and `Sum` for `u64` in the release profile. -/
def wrappingAdd (a b : Nat) : Nat := (a + b) % 2 ^ 64

/-- What the atomics hold, shard by shard. -/
structure CounterGroup where
  shards : Fin numShards → Fin slots → Nat

namespace CounterGroup

def new : CounterGroup where
  shards _ _ := 0

def add (group : CounterGroup) (shard : Fin numShards) (slot : Fin slots) (value : Nat) :
    CounterGroup where
  shards := Function.update group.shards shard
    (Function.update (group.shards shard) slot (wrappingAdd (group.shards shard slot) value))

/-- `CounterGroup::value` when nothing runs beside it. -/
def value (group : CounterGroup) (slot : Fin slots) : Nat :=
  (List.finRange numShards).foldl (fun acc shard => wrappingAdd acc (group.shards shard slot)) 0

end CounterGroup

/-- A `value` call: the shards it has loaded, and their sum. -/
structure Reading where
  slot : Fin slots
  loaded : Nat
  acc : Nat
  deriving Repr, DecidableEq

/-- The call has returned `acc`. -/
def Reading.done (reading : Reading) : Prop := reading.loaded = numShards

/-- The group, and the last `value` call of each reading thread. -/
structure MetricState (R : Type) where
  group : CounterGroup
  reading : R → Option Reading

inductive MetricStep (R : Type)
  | add (shard : Fin numShards) (slot : Fin slots) (value : Nat)
  | start (r : R) (slot : Fin slots)
  | load (r : R)
  deriving Repr, DecidableEq

def loadShard (group : CounterGroup) (reading : Reading) : Option Reading :=
  if h : reading.loaded < numShards then
    some { reading with
      loaded := reading.loaded + 1
      acc := wrappingAdd reading.acc (group.shards ⟨reading.loaded, h⟩ reading.slot) }
  else none

variable {R : Type} [DecidableEq R]

def metricStep (s : MetricState R) : MetricStep R → Option (MetricState R)
  | .add shard slot value => some { s with group := s.group.add shard slot value }
  | .start r slot => some { s with reading := Function.update s.reading r (some ⟨slot, 0, 0⟩) }
  | .load r =>
    match s.reading r with
    | none => none
    | some reading =>
      (loadShard s.group reading).map fun reading =>
        { s with reading := Function.update s.reading r (some reading) }

/-- What a step adds to the slot. -/
def MetricStep.added (slot : Fin slots) : MetricStep R → Nat
  | .add _ slot' value => if slot' = slot then value else 0
  | _ => 0

def added (slot : Fin slots) (es : List (MetricStep R)) : Nat := (es.map (·.added slot)).sum

/-- No new `value` call of the thread in these steps. -/
def NoStart (r : R) (es : List (MetricStep R)) : Prop := ∀ slot, .start r slot ∉ es

end Metrics
