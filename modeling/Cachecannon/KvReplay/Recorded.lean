import Cachecannon.Lib.Exec
import Cachecannon.Worker.Phase
import Mathlib.Data.Fintype.BigOperators

/-!
# The `recorded` flag of a row (`src/kvreplay.rs`, `drive`, `record_outcome`; `src/runner.rs`)

When a request is done, its worker adds it to `KV_REQUESTS` (`record_outcome`) and then reads the
phase for the `recorded` flag of its row; there is no await between the two. The main thread takes
the baseline of the counter before it publishes Running, and reads the counter again after Stop. A
worker adds to the shard of its thread, and the main thread loads one shard at a time.

`recorded` is a ghost: the rows a worker has written with the flag set.
-/

namespace KvReplay

open Worker (Phase)

structure RecordState (W S : Type) where
  phase : Phase
  /-- The shards of `KV_REQUESTS`. -/
  shard : S → Nat
  /-- The worker has counted a request and not read the phase yet. -/
  counted : W → Bool
  recorded : W → Nat
  /-- What the loads of the shards for `KvBaseline::take` and for `results` have read so far. -/
  base : S → Option Nat
  final : S → Option Nat

inductive RecordStep (W S : Type)
  | count (w : W)
  | row (w : W)
  | loadBase (i : S)
  | running
  | stop
  | loadFinal (i : S)
  deriving Repr, DecidableEq

variable {W S : Type} [Fintype S] [DecidableEq W] [DecidableEq S]

def RecordState.init : RecordState W S where
  phase := .warmup
  shard _ := 0
  counted _ := false
  recorded _ := 0
  base _ := none
  final _ := none

def recordStep (shardOf : W → S) (s : RecordState W S) :
    RecordStep W S → Option (RecordState W S)
  | .count w =>
    if s.counted w then none
    else some { s with
      shard := Function.update s.shard (shardOf w) (s.shard (shardOf w) + 1)
      counted := Function.update s.counted w true }
  | .row w =>
    if s.counted w then some { s with
      counted := Function.update s.counted w false
      recorded := Function.update s.recorded w
        (s.recorded w + if s.phase = .running then 1 else 0) }
    else none
  | .loadBase i =>
    if s.phase = .warmup ∧ s.base i = none then
      some { s with base := Function.update s.base i (some (s.shard i)) }
    else none
  | .running =>
    if s.phase = .warmup ∧ ∀ i, s.base i ≠ none then some { s with phase := .running } else none
  | .stop => some { s with phase := .stop }
  | .loadFinal i =>
    if s.phase = .stop ∧ s.final i = none then
      some { s with final := Function.update s.final i (some (s.shard i)) }
    else none

/-- `KV_REQUESTS` in the results: the final loads less those of the baseline. -/
def RecordState.requests (s : RecordState W S) : Nat :=
  (∑ i, (s.final i).getD 0) - ∑ i, (s.base i).getD 0

end KvReplay
