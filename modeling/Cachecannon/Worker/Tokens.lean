import Cachecannon.Lib.Budget
import Cachecannon.Lib.Exec
import Cachecannon.Worker.Phase
import Mathlib.Algebra.Order.Ring.Nat

/-!
# Rate-limit tokens in the fire loops

The token side of the two open-loop connection loops that have a limiter: the non-routed branch
of `drive_resp_workload` (`src/worker.rs`) and `run` (`src/tracereplay.rs`). An iteration takes
a batch of tokens (those carried over, or from `try_wait_n`), spends them one by one in the fire
loop, flushes, and then waits: for a token when the limiter turned it away and nothing is in
flight (`TokenDispatcher::acquire`), for a moment when nothing is in flight, else for a reply.

What the limiter, the client, the trace reader and the key draws answer in an iteration is its
input; `iterate` is `none` for an input whose ending does not fit. `debited`, `granted` and
`tried` are ghost counts: tokens taken by `try_wait_n`, tokens the dispatcher's `acquire`
returned, and requests the loop tried to fire.
-/

namespace Worker

open Budget

/-- How a send ended: buffered, or failed, with what the client then discarded. -/
inductive FireResult
  | sent
  | failed (discarded : Nat)
  deriving Repr, DecidableEq

/-- The settings of a connection loop with a limiter. `effective_batch_size` is at least one. -/
structure LoopConfig where
  pipelineDepth : Nat
  batchSize : Nat
  batchSize_pos : 0 < batchSize
  dispatcher : Bool

/-- The locals of a connection loop between two iterations, with the ghost counts. -/
structure LoopState where
  pending : Nat
  backfill : List Nat
  carriedTokens : Nat
  debited : Nat
  granted : Nat
  tried : Nat
  returned : Bool
  deriving Repr, DecidableEq

def LoopState.init (backfill : List Nat) : LoopState := ⟨0, backfill, 0, 0, 0, 0, false⟩

/-- What `TokenDispatcher::acquire` ended with: the dispatcher had stopped or stopped before it
funded the claim, a limiter whose `max_tokens` was then `maxTokens` funded it, or
`ExceedsCapacity`. -/
inductive Acquire
  | closed
  | funded (maxTokens : Nat)
  | exceeds
  deriving Repr, DecidableEq

/-- How an iteration ends, after its flush. A reply may be a miss to backfill; a connection that is
awaiting one may fail. -/
inductive Ending
  | sleep
  | acquired (answer : Acquire)
  | reply (miss : Option Nat)
  | disconnect
  deriving Repr, DecidableEq

/-- What an iteration meets: `τ` is what one turn of its fire loop meets, `prefilled` what the fire
loop of Prefill leaves in flight, `maxTokens` is `rl.max_tokens()`, and `funds` says that
`try_wait_n` succeeds. -/
structure Iteration (τ : Type) where
  phase : Phase
  alive : Bool
  started : Bool
  prefilled : Nat
  maxTokens : Nat
  funds : Bool
  turns : Nat → τ
  flush : FireResult
  ending : Ending

def backfillQueueCap : Nat := 1024

variable {τ : Type}

/-- The tokens an iteration starts its fire loop with, and whether the limiter turned it away. -/
def tokenBudget (cfg : LoopConfig) (s : LoopState) (it : Iteration τ) : Nat × Bool × LoopState :=
  if 0 < s.carriedTokens then (s.carriedTokens, false, { s with carriedTokens := 0 })
  else
    let n := min cfg.batchSize it.maxTokens
    if 0 < n && it.funds then (n, false, { s with debited := s.debited + n })
    else (0, true, s)

/-- The fire loop: `body` is one turn of it, `.sent` and `.failed` being those that took a token
off the budget. Returns the tokens left and the turn the loop was left at. -/
def fireLoop (cfg : LoopConfig) (body : LoopState → τ → Turn × LoopState) :
    (Nat → τ) → Nat → LoopState → Nat × Option Turn × LoopState
  | _, 0, s => (0, none, s)
  | turns, budget + 1, s =>
    if s.pending < cfg.pipelineDepth then
      match body s (turns 0) with
      | (.sent, s) => fireLoop cfg body (fun i => turns (i + 1)) budget s
      | (.failed, s) => (budget, some .failed, s)
      | (.empty, s) => (budget + 1, some .empty, s)
      | (.refused, s) => (budget + 1, some .refused, s)
    else (budget + 1, none, s)

/-- Fire one request, which takes a token; `rest` is the backfill queue once it is sent. -/
def fireOne (s : LoopState) (rest : List Nat) (fire : FireResult) : Turn × LoopState :=
  match fire with
  | .sent =>
    (.sent, { s with pending := s.pending + 1, tried := s.tried + 1, backfill := rest })
  | .failed discarded =>
    (.failed, { s with pending := s.pending - discarded, tried := s.tried + 1 })

def flushAll (s : LoopState) (flush : FireResult) : LoopState :=
  match flush with
  | .sent => s
  | .failed discarded => { s with pending := s.pending - discarded }

def acquire (cfg : LoopConfig) : Acquire → Nat
  | .funded maxTokens => max (min cfg.batchSize maxTokens) 1
  | .closed | .exceeds => 0

/-- `return`: the locals are gone. -/
def LoopState.leave (s : LoopState) : LoopState := { s with carriedTokens := 0, returned := true }

/-- The end of an iteration: park, sleep, or await a reply. `hold` is what becomes of the carried
tokens when `acquire` returns some. -/
def await (cfg : LoopConfig) (hold : Nat → Nat → Nat) (it : Iteration τ) (starved : Bool)
    (s : LoopState) : Option LoopState :=
  if s.pending = 0 then
    match it.ending with
    | .acquired answer =>
      if starved && cfg.dispatcher then
        let n := acquire cfg answer
        some { s with carriedTokens := hold s.carriedTokens n, granted := s.granted + n }
      else none
    | .sleep => if starved && cfg.dispatcher then none else some s
    | .reply _ | .disconnect => none
  else
    match it.ending with
    | .reply miss =>
      let backfill := if s.backfill.length < backfillQueueCap then s.backfill ++ miss.toList
        else s.backfill
      some { s with pending := s.pending - 1, backfill }
    | .disconnect => some s.leave
    | .acquired _ | .sleep => none

def returnsAtTop (s : LoopState) (it : Iteration τ) : Bool :=
  it.phase.shouldStop || (s.pending = 0 && !it.alive)

/-- `pipeline_depth.saturating_sub(client.pending_count()) >= batch_size` -/
def wantFire (cfg : LoopConfig) (s : LoopState) : Bool :=
  cfg.batchSize ≤ cfg.pipelineDepth - s.pending

/-! ## The workload loop -/

/-- The key distributions, by how a connection of several endpoints draws from them: from its
endpoint's bucket, from a sampler of its endpoint's keys, or from all keys until one routes to its
endpoint. -/
inductive KeyDist
  | uniform (bucket : List Nat)
  | byEndpoint
  | global
  deriving Repr, DecidableEq

structure WorkloadConfig extends LoopConfig where
  numEndpoints : Nat
  endpointIdx : Nat
  keyDist : KeyDist

/-- What a turn of the workload's fire loop draws (from `key_dist.sample` or as the index in a
bucket, and from the endpoint's sampler), where the worker's slot table routes a key, and how the
send ends. -/
structure WorkloadTurn where
  draws : Nat → Nat
  sampled : Option Nat
  route : Nat → Nat
  fire : FireResult

def maxRoutingAttempts (numEndpoints : Nat) : Nat := max (min (numEndpoints * 64) (2 ^ 64 - 1)) 64

def drawRouted (route : Nat → Nat) (endpoint : Nat) : (Nat → Nat) → Nat → Option Nat
  | _, 0 => none
  | draws, attempts + 1 =>
    if route (draws 0) = endpoint then some (draws 0)
    else drawRouted route endpoint (fun i => draws (i + 1)) attempts

def pickKey (cfg : WorkloadConfig) (t : WorkloadTurn) : Option Nat :=
  if cfg.numEndpoints ≤ 1 then some (t.draws 0)
  else
    match cfg.keyDist with
    | .uniform bucket => bucket[t.draws 0 % bucket.length]?
    | .byEndpoint => t.sampled
    | .global => drawRouted t.route cfg.endpointIdx t.draws (maxRoutingAttempts cfg.numEndpoints)

def workloadTurn (cfg : WorkloadConfig) (s : LoopState) (t : WorkloadTurn) : Turn × LoopState :=
  if s.backfill ≠ [] then fireOne s s.backfill.dropLast t.fire
  else
    match pickKey cfg t with
    | some _ => fireOne s s.backfill t.fire
    | none => (.empty, s)

/-- One iteration of `drive_resp_workload`, not routed: what the fire loop left of its budget is
dropped. -/
def driveRespWorkload (cfg : WorkloadConfig) (s : LoopState) (it : Iteration WorkloadTurn) :
    Option LoopState :=
  if s.returned then none
  else if returnsAtTop s it then some s.leave
  else if it.phase.sends && wantFire cfg.toLoopConfig s then
    let (budget, starved, s) := tokenBudget cfg.toLoopConfig s it
    let (_, _, s) := fireLoop cfg.toLoopConfig (workloadTurn cfg) it.turns budget s
    await cfg.toLoopConfig (fun _ n => n) it starved (flushAll s it.flush)
  else
    let s := if it.phase = .prefill then { s with pending := it.prefilled } else s
    await cfg.toLoopConfig (fun _ n => n) it false (flushAll s it.flush)

/-! ## The trace replay loop -/

inductive NextRow
  | row
  | notReady
  | exhausted
  deriving Repr, DecidableEq

/-- What a turn of the trace replay's fire loop meets; `preFlush` is the flush made first when the
batch has no room for the request. -/
structure TraceTurn where
  next : NextRow
  preFlush : FireResult
  fire : FireResult

def traceFire (s : LoopState) (rest : List Nat) (t : TraceTurn) : Turn × LoopState :=
  match t.preFlush with
  | .failed discarded => (.refused, { s with pending := s.pending - discarded, backfill := rest })
  | .sent =>
    match t.fire with
    | .sent => fireOne s rest .sent
    -- a backfill that failed is dropped
    | .failed discarded => fireOne { s with backfill := rest } rest (.failed discarded)

def traceTurn (s : LoopState) (t : TraceTurn) : Turn × LoopState :=
  match s.backfill with
  | _ :: rest => traceFire s rest t
  | [] =>
    match t.next with
    | .row => traceFire s [] t
    | .notReady | .exhausted => (.empty, s)

def carryLeft (left : Nat) (exit : Option Turn) (s : LoopState) : LoopState :=
  if exit = some .empty && 0 < left then { s with carriedTokens := s.carriedTokens + left } else s

/-- One iteration of the trace replay's `run`: what the fire loop left of its budget is carried
over when rows ran out, else dropped. -/
def traceReplayRun (cfg : LoopConfig) (s : LoopState) (it : Iteration TraceTurn) :
    Option LoopState :=
  if s.returned then none
  else if returnsAtTop s it then some s.leave
  else if it.phase.sends && wantFire cfg s && it.started then
    let (budget, starved, s) := tokenBudget cfg s it
    let (left, exit, s) := fireLoop cfg traceTurn it.turns budget s
    await cfg (· + ·) it starved (flushAll (carryLeft left exit s) it.flush)
  else await cfg (· + ·) it false (flushAll s it.flush)

end Worker
