import Cachecannon.Lib.Exec
import Cachecannon.Worker.Writers
import Mathlib.Algebra.Order.Ring.Nat

/-!
# The append stream (`src/runner.rs`, `src/worker.rs`, `src/keydist.rs`)

The runner opens a batch of new key ids every interval, queues its ids one by one for the append
writers, and publishes the new head of the keyspace once the batch is confirmed. Readers draw ids
below the published head (`Recency::sample`). A queue push is a step of its own; the rest of a
scheduler iteration touches only the runner's own data and the counters.
-/

namespace Worker

/-! ## Drawing from the head -/

structure Recency where
  batch : Nat
  generations : Nat

/-- What the random generator gives one draw: whether `u < hot_fraction`, where `u` falls in the
age weights, and the offset drawn in a range. -/
structure RecencyDraw where
  hot : Bool
  point : Nat
  offset : Nat

def randomRange (lo hi offset : Nat) : Nat := lo + offset % (hi - lo)

/-- `Recency::sample`, at the head loaded. -/
def Recency.sample (r : Recency) (head : Nat) (draw : RecencyDraw) : Nat :=
  if head = 0 then 0
  else
    let hotSpan := min (r.generations * r.batch) (2 ^ 64 - 1)
    let bodyHi := head - hotSpan
    if draw.hot then
      let a := min draw.point (r.generations - 1)
      let hi := head - a * r.batch % 2 ^ 64
      let lo := head - (a + 1) * r.batch % 2 ^ 64
      if lo < hi then randomRange lo hi draw.offset
      -- a generation clipped to nothing: a draw over everything that exists
      else randomRange 0 head draw.offset
    else if bodyHi = 0 then randomRange 0 head draw.offset
    else randomRange 0 bodyHi draw.offset

/-- `Rng::random_range`, which panics on an empty range. -/
def tryRandomRange (lo hi offset : Nat) : Option Nat :=
  if lo < hi then some (randomRange lo hi offset) else none

def Recency.sampleGeneration (r : Recency) (draw : RecencyDraw) : Nat :=
  min draw.point (r.generations - 1)

/-- `Recency::sample`, with its panics. -/
def Recency.trySample (r : Recency) (head : Nat) (draw : RecencyDraw) : Option Nat :=
  if head = 0 then some 0
  else
    let hotSpan := min (r.generations * r.batch) (2 ^ 64 - 1)
    let bodyHi := head - hotSpan
    if draw.hot then
      let a := r.sampleGeneration draw
      let hi := head - a * r.batch % 2 ^ 64
      let lo := head - (a + 1) * r.batch % 2 ^ 64
      if lo < hi then tryRandomRange lo hi draw.offset
      else tryRandomRange 0 head draw.offset
    else if bodyHi = 0 then tryRandomRange 0 head draw.offset
    else tryRandomRange 0 bodyHi draw.offset

/-! ## The scheduler -/

/-- The settings of an append stream; `Config::validate` refuses an empty keyspace or batch and a
zero interval. -/
structure AppendConfig (E C W : Type) extends WriterConfig E C W where
  keyCount : Nat
  keyCount_pos : 0 < keyCount
  batch : Nat
  batch_pos : 0 < batch
  every : Nat
  every_pos : 0 < every
  warmupStart : Nat
  startup : Nat → E

/-- The scheduler's counters and the published `head`; `total` is `append_keys_total`. `enqueuing`
is set inside `enqueue_append_batch`, with the time the batch was opened and the ids queued so
far. `batches` is a ghost: the batches opened and queued, with their opening times and ids. -/
structure AppendState (E C W : Type) extends WriteState E C W where
  total : Nat
  nextId : Nat
  batchOpen : Bool
  batchesCommitted : Nat
  nextAt : Option Nat
  head : Nat
  enqueuing : Option (Nat × List Nat)
  batches : List (Nat × List Nat)

variable {E C W : Type} [DecidableEq E] [DecidableEq C] [DecidableEq W]

def AppendState.init (cfg : AppendConfig E C W) : AppendState E C W where
  queue _ := []
  conn _ := .new
  table _ := cfg.startup
  confirmed := 0
  acked := []
  total := 0
  nextId := cfg.keyCount
  batchOpen := false
  batchesCommitted := 0
  nextAt := none
  head := cfg.keyCount
  enqueuing := none
  batches := []

/-- An iteration of the scheduler, at the time `now`: commit the open batch if it has fully
landed, or begin to open the next one when its time has come. -/
def schedule (cfg : AppendConfig E C W) (s : AppendState E C W) (now : Nat) : AppendState E C W :=
  let nextAt := s.nextAt.getD (cfg.warmupStart + cfg.every)
  let s := { s with nextAt := some nextAt }
  if s.batchOpen then
    if s.total ≤ s.confirmed then
      { s with batchOpen := false, batchesCommitted := s.batchesCommitted + 1, head := s.nextId }
    else s
  else if nextAt ≤ now then { s with enqueuing := some (now, []) }
  else s

inductive AppendStep (E C : Type)
  | writer (c : C) (e : WriterStep E)
  | schedule (now : Nat)
  | enqueue
  | opened

/-- Every fire loop of an append writer sends keys of the queues. -/
def appendAllows : WriterStep E → Bool
  | .begin writes => writes
  | _ => true

def appendStep (cfg : AppendConfig E C W) (s : AppendState E C W) :
    AppendStep E C → Option (AppendState E C W)
  | .writer c e =>
    if appendAllows e then
      (writerStep cfg.toWriterConfig s.toWriteState c e).map fun t => { s with toWriteState := t }
    else none
  | .schedule now => if s.enqueuing = none then some (schedule cfg s now) else none
  | .enqueue =>
    match s.enqueuing with
    | some (now, ids) =>
      if ids.length < cfg.batch then
        let id := s.nextId + ids.length
        some { s with toWriteState := s.toWriteState.pushBack (cfg.startup (cfg.slotOf id)) id
                      enqueuing := some (now, ids ++ [id]) }
      else none
    | none => none
  | .opened =>
    match s.enqueuing with
    | some (now, ids) =>
      if ids.length = cfg.batch then
        some { s with total := s.total + cfg.batch, nextId := s.nextId + cfg.batch
                      batchOpen := true, nextAt := s.nextAt.map (· + cfg.every)
                      enqueuing := none, batches := s.batches ++ [(now, ids)] }
      else none
    | none => none

end Worker
