import Cachecannon.Lib.Exec
import Cachecannon.Lib.Pipeline
import Cachecannon.Worker.Phase
import Mathlib.Algebra.Order.Ring.Nat

/-!
# Requests in flight (`src/worker.rs`, `InFlight`)

The bookkeeping of `drive_resp_workload`: which requests a connection has in flight, when each was
fired and how long it had waited in a routed queue, and the counters of requests sent and failed.
All four fire loops are here (Prefill, routed backfills and requests, workload backfills and
requests), with the flush and the receive of an iteration. The keys and the queues they come from
are in `Worker.Writers`, `Worker.Routed` and `Worker.Tokens`; here a turn of a loop says what it
found there, and the end of the turns is a loop left for a reason that touches none of the
bookkeeping. `tried` is a ghost: the requests given to the client.

A function is `none` where `fired_count -= discarded` would underflow.
-/

namespace Worker

open Pipeline

/-- A request given to the client. -/
structure Request where
  firedAt : Nat
  queuedNs : Nat
  deriving Repr, DecidableEq

/-- `InFlight`, less its deadline timer. -/
structure InFlight where
  fired : List Nat
  queued : List Nat
  trackQueued : Bool
  deriving Repr, DecidableEq

namespace InFlight

def new : InFlight := ⟨[], [], false⟩

def trackingQueued (v : InFlight) : InFlight := { v with trackQueued := true, queued := [] }

def pushQueued (v : InFlight) (firedAt queuedNs : Nat) : InFlight :=
  { v with
    fired := v.fired ++ [firedAt]
    queued := if v.trackQueued then v.queued ++ [queuedNs] else v.queued }

def push (v : InFlight) (firedAt : Nat) : InFlight := v.pushQueued firedAt 0

/-- The queue wait of the oldest request, 0 when not tracked, and the rest. -/
def pop (v : InFlight) : Nat × InFlight :=
  (v.queued.headD 0, { v with fired := v.fired.tail, queued := v.queued.tail })

def forgetNewest (v : InFlight) (n : Nat) : InFlight :=
  let keep := v.fired.length - n
  { v with fired := v.fired.take keep, queued := v.queued.take keep }

end InFlight

/-- A connection in an iteration: the client, the bookkeeping, `fired_count`, and this
connection's part of `REQUESTS_SENT` and `REQUESTS_SEND_FAILED`. -/
structure Firing where
  client : Client Request
  inflight : InFlight
  firedCount : Nat
  requestsSent : Nat
  sendFailed : Nat
  tried : Nat

namespace Firing

/-- `note_discarded`, the client having had `before` requests pending. -/
def noteDiscarded (s : Firing) (before : Nat) (countFailed : Bool) : Nat × Firing :=
  let discarded := before - s.client.pendingCount
  (discarded,
    { s with
      inflight := s.inflight.forgetNewest discarded
      sendFailed := if countFailed then s.sendFailed + discarded else s.sendFailed })

def noteFailedFire (s : Firing) (before : Nat) (countFailed : Bool) : Nat × Firing :=
  { s with sendFailed := if countFailed then s.sendFailed + 1 else s.sendFailed }.noteDiscarded
    before countFailed

/-- `fired_count -= discarded` -/
def uncount (s : Firing) (discarded : Nat) : Option Firing :=
  if discarded ≤ s.firedCount then some { s with firedCount := s.firedCount - discarded } else none

/-- A `fire_*` that succeeds: the request is buffered, and the batch may be flushed by the client
itself. -/
def sendOne (s : Firing) (r : Request) (flushes : Bool) : Firing :=
  { s with
    client := s.client.fire r flushes
    inflight := s.inflight.pushQueued r.firedAt r.queuedNs
    firedCount := s.firedCount + 1
    tried := s.tried + 1 }

/-- A `fire_*` that fails. -/
def failOne (s : Firing) : Option Firing :=
  let before := s.client.pendingCount
  let s := { s with client := s.client.discard, tried := s.tried + 1 }
  let (discarded, s) := s.noteFailedFire before true
  s.uncount discarded

/-- The flush at the end of an iteration, and `REQUESTS_SENT.add(fired_count)`. -/
def flush (s : Firing) (succeeds : Bool) : Option Firing :=
  let s := if succeeds then some { s with client := s.client.flush }
    else
      let before := s.client.pendingCount
      let s := { s with client := s.client.discard }
      let (discarded, s) := s.noteDiscarded before true
      s.uncount discarded
  s.map fun s => { s with requestsSent := s.requestsSent + s.firedCount }

end Firing

/-! ## The fire loops -/

/-- How a `fire_*` ends. One that flushes what is buffered and fails after it discards nothing: it
leaves the same as a fire before it that flushes (`sent true`) and one that fails. -/
inductive Fire
  | sent (flushes : Bool)
  | failed
  deriving Repr, DecidableEq

/-- A turn of a fire loop: it is left, it goes on to the next turn, or a request is fired. -/
inductive FireTurn
  | leave
  | skip
  | fire (queuedNs : Nat) (fire : Fire)
  deriving Repr, DecidableEq

/-- A fire loop, in an iteration that stamps its requests `firedAt`. -/
def fillLoop (pipelineDepth firedAt : Nat) : List FireTurn → Firing → Option Firing
  | [], s => some s
  | turn :: turns, s =>
    if s.client.pendingCount < pipelineDepth then
      match turn with
      | .leave => some s
      | .skip => fillLoop pipelineDepth firedAt turns s
      | .fire queuedNs (.sent flushes) =>
        fillLoop pipelineDepth firedAt turns (s.sendOne ⟨firedAt, queuedNs⟩ flushes)
      | .fire _ .failed => s.failOne
    else some s

/-- Prefill: the endpoint's queue is empty, its head routes elsewhere now, the pacer refuses, or a
SET is fired. -/
inductive PrefillTurn
  | empty
  | rerouted
  | refused
  | set (fire : Fire)
  deriving Repr, DecidableEq

def PrefillTurn.toTurn : PrefillTurn → FireTurn
  | .empty | .refused => .leave
  | .rerouted => .skip
  | .set fire => .fire 0 fire

/-- Routed: a backfill that the limiter funds, or the head of the node's queue. -/
inductive RoutedSend
  | backfill (fire : Fire)
  | empty
  | request (fundedAt : Nat) (fire : Fire)
  deriving Repr, DecidableEq

def RoutedSend.toTurn (firedAt : Nat) : RoutedSend → FireTurn
  | .backfill fire => .fire 0 fire
  | .empty => .leave
  -- `fired_at.saturating_duration_since(request.funded_at).as_nanos() as u64`
  | .request fundedAt fire => .fire ((firedAt - fundedAt) % 2 ^ 64) fire

/-- Not routed: a backfill, no key for the endpoint, or a request. -/
inductive WorkloadSend
  | backfill (fire : Fire)
  | noKey
  | request (fire : Fire)
  deriving Repr, DecidableEq

def WorkloadSend.toTurn : WorkloadSend → FireTurn
  | .backfill fire | .request fire => .fire 0 fire
  | .noKey => .leave

structure FillConfig where
  pipelineDepth : Nat
  batchSize : Nat
  routed : Bool

/-- How an iteration with requests in flight ends: a reply, requests to send before one arrives
(routed), or a connection that failed. -/
inductive Received
  | reply
  | sendMore
  | disconnect
  deriving Repr, DecidableEq

structure FillIteration where
  phase : Phase
  alive : Bool
  prefillDone : Bool
  now : Nat
  tokenBudget : Nat
  prefill : List PrefillTurn
  routed : List RoutedSend
  workload : List WorkloadSend
  flush : Bool
  received : Received

/-- Fill the pipeline and flush it. -/
def fill (cfg : FillConfig) (s : Firing) (it : FillIteration) : Option Firing :=
  let s := { s with firedCount := 0 }
  let wantFire := cfg.batchSize ≤ cfg.pipelineDepth - s.client.pendingCount
  let turns :=
    if it.phase = .prefill ∧ !it.prefillDone then
      if wantFire then it.prefill.map PrefillTurn.toTurn else []
    else if it.phase.sends ∧ wantFire then
      if cfg.routed then it.routed.map (RoutedSend.toTurn it.now)
      -- a turn that goes on takes a token
      else (it.workload.take it.tokenBudget).map WorkloadSend.toTurn
    else []
  (fillLoop cfg.pipelineDepth it.now turns s).bind (·.flush it.flush)

/-- A connection between iterations. -/
structure FiringConn extends Firing where
  returned : Bool

def FiringConn.init (routed : Bool) : FiringConn where
  client := .new
  inflight := if routed then InFlight.new.trackingQueued else .new
  firedCount := 0
  requestsSent := 0
  sendFailed := 0
  tried := 0
  returned := false

/-- The end of an iteration: with nothing in flight the connection waits and goes on. -/
def receive (s : Firing) (received : Received) : FiringConn :=
  if s.client.pendingCount = 0 then ⟨s, false⟩
  else
    match received with
    | .reply => ⟨{ s with client := s.client.reply, inflight := s.inflight.pop.2 }, false⟩
    | .sendMore => ⟨s, false⟩
    | .disconnect => ⟨s, true⟩

/-- One iteration of `drive_resp_workload`. -/
def iterate (cfg : FillConfig) (s : FiringConn) (it : FillIteration) : Option FiringConn :=
  if s.returned then some s
  else if it.phase.shouldStop || (s.client.pendingCount = 0 && !it.alive) then
    some { s with returned := true }
  else (fill cfg s.toFiring it).map (receive · it.received)

end Worker
